import Mathlib
import TapeLang.Proofs.Blocks
import TapeLang.Proofs.Content
import TapeLang.Proofs.Render

/-!
# Stages of reading

What matters of a reader for the lines to come is which blocks are open, whether a block is awaited, and
what has been collected, but not where it stood. A `Stage` keeps just that, and `Leads` says that given
lines take every reader at one stage to another.

* `Gist`, `Stage`, `Reader.Stands`: a reader up to the places of what it has read;
* `Admits`: the blocks in which a line of a given indentation stands;
* `Leads`, `Leads.append`: lines that are read without error, one after the other;
* `Continues`: the same for whole sections of a text, each of which begins outside every block.
-/

namespace TapeLang

/-- What has been collected, without the places. -/
structure Gist where
  /-- The directives so far, last first. -/
  seen : List Directive := []
  name : Option Ast.NameDecl := none
  tape : Option Ast.TapeDecl := none
  /-- The rows below `tapes:`, last first. -/
  rows : List (List Ast.Symbol) := []
  head : Option Ast.HeadDecl := none
  blank : Option Ast.BlankDecl := none
  /-- The states, last first. -/
  states : List Ast.State := []

/-- Neither the directive nor the other spelling of it has been seen. -/
def Gist.IsFresh (g : Gist) (d : Directive) : Prop :=
  d ∉ g.seen ∧ ∀ v ∈ d.variants, v.1 ∉ g.seen ∧ v.2 ∉ g.seen

/-- One more directive. -/
def Gist.note (g : Gist) (d : Directive) : Gist := { g with seen := d :: g.seen }

/-- How far the reading has come. -/
structure Stage where
  /-- The open blocks with their levels, innermost first. -/
  blocks : List (Block × Indent)
  /-- A block whose header has just been read. -/
  awaited : Option Block
  gist : Gist

/-- The innermost level. -/
def levelOf (blocks : List (Block × Indent)) : Indent := (blocks.map Prod.snd).headD []

namespace Reader

/-- What a reader has collected. -/
def gist (r : Reader) : Gist where
  seen := r.seen.map Prod.fst
  name := r.name.map Ast.NameDecl.unlocated
  tape := r.tape.map Ast.TapeDecl.unlocated
  rows := r.rows.map (List.map Ast.Symbol.unlocated)
  head := r.head.map Ast.HeadDecl.unlocated
  blank := r.blank.map Ast.BlankDecl.unlocated
  states := r.readStates.map Ast.State.unlocated

/-- The reader is at the given stage. -/
structure Stands (r : Reader) (S : Stage) : Prop where
  contexts : r.contexts = S.blocks.map Prod.fst ++ [.top]
  indents : r.indents = ⟨[], S.blocks.map Prod.snd⟩
  pending : r.pending.map Prod.fst = S.awaited
  current : .state ∈ S.blocks.map Prod.fst ∨ S.awaited = some .state → r.current.isSome
  gist : r.gist = S.gist

variable {r : Reader} {S : Stage}

theorem stands_start (file : String) : Stands { file := file } ⟨[], none, {}⟩ where
  contexts := rfl
  indents := rfl
  pending := rfl
  current := by simp
  gist := rfl

theorem seenLine?_eq_none_iff {d : Directive} : r.seenLine? d = none ↔ d ∉ r.seen.map Prod.fst := by
  simp only [seenLine?, Option.map_eq_none_iff, List.find?_eq_none, List.mem_map]
  constructor
  · rintro h ⟨e, he, rfl⟩
    exact h e he (by simp)
  · intro h e he heq
    exact h ⟨e, he, by simpa using heq⟩

theorem Stands.seen (h : r.Stands S) : r.seen.map Prod.fst = S.gist.seen :=
  congrArg Gist.seen h.gist

theorem Stands.isFresh (h : r.Stands S) {d : Directive} (hd : S.gist.IsFresh d) : r.IsFresh d := by
  have hnone : ∀ d', d' ∉ S.gist.seen → r.seenLine? d' = none := by
    intro d' hd'
    rw [seenLine?_eq_none_iff, h.seen]
    exact hd'
  exact ⟨hnone d hd.1, fun v hv => ⟨hnone v.1 (hd.2 v hv).1, hnone v.2 (hd.2 v hv).2⟩⟩

theorem Stands.pending_ne (h : r.Stands S) {b : Block} (hb : S.awaited ≠ some b) (header : Line) :
    r.pending ≠ some (b, header) := by
  intro hp
  have hmap := h.pending
  rw [hp] at hmap
  exact hb hmap.symm

/-- A reader that has collected more is at the same place in its text. -/
theorem Stands.collect {r' : Reader} {g : Gist} (h : r.Stands S) (hcontexts : r'.contexts = r.contexts)
    (hindents : r'.indents = r.indents) (hpending : r'.pending = r.pending)
    (hcurrent : r.current.isSome → r'.current.isSome) (hgist : r.gist = S.gist → r'.gist = g) :
    r'.Stands { S with gist := g } where
  contexts := hcontexts.trans h.contexts
  indents := hindents.trans h.indents
  pending := (congrArg _ hpending).trans h.pending
  current := fun h' => hcurrent (h.current h')
  gist := hgist h.gist

theorem Stands.note (h : r.Stands S) (line : Line) (d : Directive) :
    (r.note line d).Stands { S with gist := S.gist.note d } := by
  refine h.collect rfl rfl rfl id fun hgist => ?_
  rw [← hgist]
  rfl

end Reader

/-! ### Entering blocks -/

/-- A line of the given indentation stands in the given blocks. -/
def Admits (S : Stage) (indent : Indent) (blocks : List (Block × Indent)) : Prop :=
  ∀ r line, line.indent = indent → r.Stands S →
    ∃ r', Reader.Enters r line r' ∧ r'.Stands ⟨blocks, none, S.gist⟩

/-- A deeper line opens the awaited block. -/
theorem admits_awaited {blocks : List (Block × Indent)} {b : Block} {g : Gist} {indent : Indent}
    (hextends : levelOf blocks <+: indent) (hne : levelOf blocks ≠ indent) :
    Admits ⟨blocks, some b, g⟩ indent ((b, indent) :: blocks) := by
  rintro r line rfl h
  obtain ⟨⟨b', header⟩, hpending, hb⟩ := Option.map_eq_some_iff.1 h.pending
  obtain rfl : b' = b := hb
  have htop : r.indents.top = levelOf blocks := by
    rw [h.indents]
    rfl
  have hdeeper : r.indents.isDeeper line.indent = true := by
    rw [IndentStack.isDeeper, htop, Bool.and_eq_true, decide_eq_true_eq, List.isPrefixOf_iff_prefix]
    exact ⟨lt_of_le_of_ne hextends.length_le fun h => hne (hextends.eq_of_length h), hextends⟩
  refine ⟨_, .opens hpending hdeeper, ?_⟩
  refine { contexts := ?_, indents := ?_, pending := rfl, current := fun h' => ?_, gist := h.gist }
  · rw [h.contexts]
    rfl
  · rw [h.indents]
    rfl
  · rcases h' with h' | h'
    · rcases List.mem_cons.1 h' with h' | h'
      · exact h.current (.inr (congrArg some h'.symm))
      · exact h.current (.inl h')
    · cases h'

/-- A line of an outer level closes the blocks inside it. -/
theorem admits_open (inner : List (Block × Indent)) {blocks : List (Block × Indent)}
    {awaited : Option Block} {g : Gist} {indent : Indent}
    (hawaited : awaited ≠ some .tapes ∧ awaited ≠ some .rules)
    (hinner : ∀ b ∈ inner, b.2 ≠ indent) (hlevel : levelOf blocks = indent)
    (hextends : indent <+: levelOf (inner ++ blocks)) :
    Admits ⟨inner ++ blocks, awaited, g⟩ indent blocks := by
  rintro r line rfl h
  have htop : r.indents.top = levelOf (inner ++ blocks) := by
    rw [h.indents]
    rfl
  have hdeeper : r.indents.isDeeper line.indent = false := by
    rw [IndentStack.isDeeper, htop, Bool.and_eq_false_iff, decide_eq_false_iff_not]
    exact .inl (Nat.not_lt.2 hextends.length_le)
  have hclose : IndentStack.closeTo [] line.indent ((inner ++ blocks).map Prod.snd) =
      some (inner.length, blocks.map Prod.snd) := by
    have hclose := IndentStack.closeTo_append (List.forall_mem_map.2 hinner) hlevel
    rwa [← List.map_append, List.length_map] at hclose
  have hindents := h.indents
  refine ⟨_, .closes (h.pending_ne hawaited.1) (h.pending_ne hawaited.2) hdeeper
    (by rw [hindents]; exact hclose), ?_⟩
  refine { contexts := ?_, indents := ?_, pending := rfl, current := fun h' => ?_, gist := h.gist }
  · rw [h.contexts]
    simp
  · rw [h.indents]
  · rcases h' with h' | h'
    · refine h.current (.inl ?_)
      rw [List.map_append]
      exact List.mem_append_right _ h'
    · cases h'

/-- A line of the innermost level stands in all the open blocks. -/
theorem admits_same {blocks : List (Block × Indent)} {awaited : Option Block} {g : Gist}
    (hawaited : awaited ≠ some .tapes ∧ awaited ≠ some .rules) :
    Admits ⟨blocks, awaited, g⟩ (levelOf blocks) blocks :=
  admits_open [] hawaited (by simp) rfl List.prefix_rfl

/-! ### Reading lines -/

/-- The texts are lines, and every reader at the first stage reads them without error and comes to the
second stage. -/
structure Leads (S : Stage) (raws : List (List Char)) (S' : Stage) : Prop where
  inline : ∀ raw ∈ raws, ∀ c ∈ raw, Text.isLineBreak c = false
  reads : ∀ (r : Reader) (n : Nat), r.Stands S →
    ∃ r', r.feedAll (scanFrom n raws) = .ok r' ∧ r'.Stands S'

theorem scanFrom_append (n : Nat) (raws raws' : List (List Char)) :
    scanFrom n (raws ++ raws') = scanFrom n raws ++ scanFrom (n + raws.length) raws' := by
  induction raws generalizing n with
  | nil => rfl
  | cons raw raws ih =>
    have hnext : n + 1 + raws.length = n + (raw :: raws).length := by
      rw [List.length_cons]
      omega
    simp only [List.cons_append, scanFrom, ih, hnext]
    split <;> rfl

theorem Reader.feedAll_append {r r₁ r₂ : Reader} {lines lines' : List Line}
    (h : r.feedAll lines = .ok r₁) (h' : r₁.feedAll lines' = .ok r₂) :
    r.feedAll (lines ++ lines') = .ok r₂ := by
  induction lines generalizing r with
  | nil =>
    cases h
    exact h'
  | cons line lines ih =>
    obtain ⟨r', hr', h⟩ := feedAll_cons_eq_ok_iff.1 h
    exact feedAll_cons_eq_ok_iff.2 ⟨r', hr', ih h⟩

theorem Leads.refl (S : Stage) : Leads S [] S := ⟨by simp, fun r _ h => ⟨r, rfl, h⟩⟩

theorem Leads.append {S S₁ S₂ : Stage} {raws raws' : List (List Char)} (h : Leads S raws S₁)
    (h' : Leads S₁ raws' S₂) : Leads S (raws ++ raws') S₂ := by
  refine ⟨List.forall_mem_append.2 ⟨h.inline, h'.inline⟩, fun r n hr => ?_⟩
  obtain ⟨r₁, hr₁, hstands₁⟩ := h.reads r n hr
  obtain ⟨r₂, hr₂, hstands₂⟩ := h'.reads r₁ (n + raws.length) hstands₁
  refine ⟨r₂, ?_, hstands₂⟩
  rw [scanFrom_append]
  exact Reader.feedAll_append hr₁ hr₂

/-- A line that is admitted to some blocks and handled there. -/
theorem Admits.leads {S S' : Stage} {indent content : List Char} {blocks : List (Block × Indent)}
    (hadmits : Admits S indent blocks) (hindent : ∀ c ∈ indent, Text.isBlank c = true)
    (hcontent : IsContent content)
    (handles : ∀ r line, line.content = content → r.Stands ⟨blocks, none, S.gist⟩ →
      ∃ r', Reader.Handles r line r' ∧ r'.Stands S') :
    Leads S [indent ++ content] S' := by
  have hinline : ∀ c ∈ indent ++ content, Text.isLineBreak c = false :=
    List.forall_mem_append.2 ⟨fun c hc => Text.isLineBreak_of_isBlank (hindent c hc), hcontent.inline⟩
  refine ⟨by simpa using hinline, fun r n hr => ?_⟩
  obtain ⟨r₁, henters, hstands₁⟩ := hadmits r ⟨n, indent, content, indent ++ content⟩ rfl hr
  obtain ⟨r₂, hhandles, hstands₂⟩ := handles r₁ ⟨n, indent, content, indent ++ content⟩ rfl hstands₁
  refine ⟨r₂, ?_, hstands₂⟩
  rw [hcontent.scanFrom_cons hindent, scanFrom]
  exact Reader.feedAll_cons_eq_ok_iff.2 ⟨r₂, Reader.feed_eq_ok_iff.2 ⟨r₁, henters, hhandles⟩, rfl⟩

/-! ### Sections -/

/-- A directive may follow: no block is awaited that has to have a line, and every block is indented. -/
structure Stage.IsDone (S : Stage) : Prop where
  awaited : S.awaited ≠ some .tapes ∧ S.awaited ≠ some .rules
  blocks : ∀ b ∈ S.blocks, b.2 ≠ []

/-- Where a directive may follow, the lines are read, and a directive may follow again. -/
def Continues (g : Gist) (raws : List (List Char)) (g' : Gist) : Prop :=
  ∀ S : Stage, S.gist = g → S.IsDone → ∃ S', Leads S raws S' ∧ S'.gist = g' ∧ S'.IsDone

theorem Continues.refl (g : Gist) : Continues g [] g := fun S hg hS => ⟨S, .refl S, hg, hS⟩

theorem Continues.append {g g₁ g₂ : Gist} {raws raws' : List (List Char)} (h : Continues g raws g₁)
    (h' : Continues g₁ raws' g₂) : Continues g (raws ++ raws') g₂ := by
  intro S hg hS
  obtain ⟨S₁, hleads₁, hg₁, hS₁⟩ := h S hg hS
  obtain ⟨S₂, hleads₂, hg₂, hS₂⟩ := h' S₁ hg₁ hS₁
  exact ⟨S₂, hleads₁.append hleads₂, hg₂, hS₂⟩

theorem Stage.IsDone.admits {S : Stage} (hS : S.IsDone) : Admits S [] [] := by
  have hadmits : Admits ⟨S.blocks ++ [], S.awaited, S.gist⟩ [] [] :=
    admits_open S.blocks hS.awaited hS.blocks rfl List.nil_prefix
  rwa [List.append_nil] at hadmits

/-- The line of a directive. -/
theorem Stage.IsDone.leads_directive {S S' : Stage} (hS : S.IsDone) {d : Directive}
    {rest : List Char} (hcontent : IsContent (Ast.directive d rest)) (hfresh : S.gist.IsFresh d)
    (declares : ∀ r line offset, r.Stands ⟨[], none, S.gist.note d⟩ →
      ∃ r', Reader.Declares r line offset rest d r' ∧ r'.Stands S') :
    Leads S [Ast.directive d rest] S' := by
  rw [← List.nil_append (Ast.directive d rest)]
  refine hS.admits.leads (by simp) hcontent fun r line hline hr => ?_
  obtain ⟨r', hdeclares, hr'⟩ := declares _ line (line.indent.length + d.text.toList.length + 1)
    (hr.note line d)
  refine ⟨r', .directive ?_ hline ?_ ?_ (hr.isFresh hfresh) hdeclares, hr'⟩
  · rw [hr.contexts]
    rfl
  · cases d <;> decide
  · cases d <;> rfl

end TapeLang
