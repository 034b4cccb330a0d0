import Mathlib
import TapeLang.Proofs.Section

/-!
# Reading undoes writing

The text of a tree is read section by section, and what has been collected at the end is the tree, up to
the places of its parts.

* `Directive.place`, `Gist.Precedes`: the order of the sections, in which no directive comes twice;
* `Gist.ofTree`, `continues_sourceLines`: what has been collected from the text of a tree;
* `Reader.exists_finish`: the tree that is made of it;
* `parse_render`: the text of a tree is read as that tree.
-/

namespace TapeLang

open Ast

variable {g : Gist} {r : Reader}

/-! ### The order of the sections -/

/-- The place of a directive in the text of a tree. -/
def Directive.place : Directive → Nat
  | .name => 0
  | .tape | .tapes => 1
  | .head | .heads => 2
  | .blank => 3
  | .rules => 4

namespace Gist

/-- Only directives before the given place have been seen. -/
def Precedes (g : Gist) (n : Nat) : Prop := ∀ d ∈ g.seen, d.place < n

theorem Precedes.isFresh {d : Directive} (h : g.Precedes d.place) : g.IsFresh d := by
  have hunseen : ∀ d', d'.place = d.place → d' ∉ g.seen :=
    fun d' hd' hmem => (h d' hmem).ne hd'
  have hvariants : ∀ v ∈ d.variants, v.1.place = d.place ∧ v.2.place = d.place := by
    cases d <;> simp [Directive.variants, Directive.place]
  exact ⟨hunseen d rfl, fun v hv =>
    ⟨hunseen v.1 (hvariants v hv).1, hunseen v.2 (hvariants v hv).2⟩⟩

/-- A section that may be missing. -/
theorem Precedes.append {n : Nat} (h : g.Precedes n) (ds : List Directive) {g' : Gist}
    (hg' : g'.seen = ds ++ g.seen) (hds : ∀ d ∈ ds, d.place = n) : g'.Precedes (n + 1) := by
  intro d hd
  rw [hg', List.mem_append] at hd
  rcases hd with hd | hd
  · exact (hds d hd).trans_lt n.lt_succ_self
  · exact (h d hd).trans n.lt_succ_self

/-- What is collected from the text of a tree. -/
def ofTree (p : Ast.Program) : Gist :=
  ((((({} : Gist).withName p.name).withTape p.tape).withHead p.head).withBlank p.blank).note .rules
    |>.withStates p.states

end Gist

/-- A directive that may be missing. -/
theorem Continues.optional {α : Type} {d : Option α} {source : α → List Char} (add : Option α → Gist)
    (hnone : add none = g) (hsome : ∀ x ∈ d, Continues g [source x] (add (some x))) :
    Continues g (d.map source).toList (add d) := by
  cases d with
  | none =>
    rw [hnone]
    exact .refl g
  | some x => exact hsome x rfl

/-- The text of a tree is read without error, and the tree is collected. -/
theorem continues_sourceLines (layout : Layout) {p : Ast.Program} (h : p.IsWritable) :
    Continues {} (p.sourceLines layout) (Gist.ofTree p) := by
  let g₁ := ({} : Gist).withName p.name
  let g₂ := g₁.withTape p.tape
  let g₃ := g₂.withHead p.head
  let g₄ := g₃.withBlank p.blank
  -- each section leaves the places after its own to the others
  have hplace₀ : ({} : Gist).Precedes 0 := by simp [Gist.Precedes]
  have hplace₁ : g₁.Precedes 1 := by
    refine hplace₀.append _ rfl ?_
    cases p.name <;> simp [Directive.place]
  have hplace₂ : g₂.Precedes 2 := by
    refine hplace₁.append [_] rfl ?_
    cases p.tape.multi <;> simp [Directive.place]
  have hplace₃ : g₃.Precedes 3 := by
    refine hplace₂.append _ rfl ?_
    rcases p.head with - | ⟨_, _ | _, _⟩ <;> simp [Directive.place]
  have hplace₄ : g₄.Precedes 4 := by
    refine hplace₃.append _ rfl ?_
    cases p.blank <;> simp [Directive.place]
  have hname := Continues.optional (Gist.withName {}) rfl fun d hd =>
    continues_name (h.name d hd) hplace₀.isFresh
  have htape : Continues g₁ (p.tape.sourceLines layout) g₂ :=
    continues_tape h.tape hplace₁.isFresh hplace₁.isFresh
  have hhead := Continues.optional (Gist.withHead g₂) rfl fun d hd =>
    continues_head (h.head d hd) hplace₂.isFresh hplace₂.isFresh
  have hblank := Continues.optional (Gist.withBlank g₃) rfl fun d hd =>
    continues_blank (h.blank d hd) hplace₃.isFresh
  have hrules : Continues g₄ (directive .rules [] :: p.states.flatMap (State.sourceLines layout))
      (Gist.ofTree p) :=
    continues_rules h.states_ne h.state_name h.transitions h.distinct hplace₄.isFresh rfl
  exact hname.append (htape.append (hhead.append (hblank.append hrules)))

/-! ### The tree -/

namespace Reader

variable {p : Ast.Program}

theorem isSome_seenLine?_iff {d : Directive} : (r.seenLine? d).isSome ↔ d ∈ r.gist.seen := by
  rw [Option.isSome_iff_ne_none, ne_eq, seenLine?_eq_none_iff, not_not]
  rfl

theorem tapes_mem_ofTree : .tapes ∈ (Gist.ofTree p).seen ↔ p.tape.multi = true := by
  have hhead : ∀ d : HeadDecl, (if d.multi then Directive.heads else .head) ≠ .tapes := by
    intro d
    split <;> decide
  simp [Gist.ofTree, Gist.withStates, Gist.note, Gist.withBlank, Gist.withHead, Gist.withTape,
    Gist.withName, hhead]

theorem exists_tapeDecl (h : r.gist = Gist.ofTree p) :
    ∃ tape, r.tapeDecl? = some tape ∧ tape.unlocated = p.tape.unlocated := by
  have hrows : r.rows.map (List.map Ast.Symbol.unlocated) =
      if p.tape.multi then (p.tape.rows.map (List.map Ast.Symbol.unlocated)).reverse ++ [] else [] :=
    congrArg Gist.rows h
  have htape : r.tape.map TapeDecl.unlocated = if p.tape.multi then none else some p.tape.unlocated :=
    congrArg Gist.tape h
  have hseen : (r.seenLine? .tapes).isSome ↔ p.tape.multi = true := by
    rw [isSome_seenLine?_iff, h, tapes_mem_ofTree]
  unfold tapeDecl?
  split
  · next header hheader =>
    have hmulti := hseen.1 (Option.isSome_of_eq_some hheader)
    rw [if_pos hmulti, List.append_nil] at hrows
    refine ⟨_, rfl, ?_⟩
    simp [TapeDecl.unlocated, hmulti, List.map_reverse, hrows]
  · next hnone =>
    have hmulti : ¬p.tape.multi = true := fun h => by simpa [hnone] using hseen.2 h
    rw [if_neg hmulti] at htape
    exact Option.map_eq_some_iff.1 htape

/-- From what has been collected comes the tree. -/
theorem exists_finish {S : Stage} (hr : r.Stands S) (hS : S.IsDone) (hg : S.gist = Gist.ofTree p)
    (hcount : ∀ d ∈ p.head, d.positions.length = p.tape.rows.length) :
    ∃ tree, r.finish = .ok tree ∧ tree.unlocated = p.unlocated := by
  have hgist : r.gist = Gist.ofTree p := hr.gist.trans hg
  obtain ⟨tape, htape, htapes⟩ := exists_tapeDecl hgist
  have hname : r.name.map NameDecl.unlocated = (p.name.map NameDecl.unlocated).or none :=
    congrArg Gist.name hgist
  have hhead : r.head.map HeadDecl.unlocated = (p.head.map HeadDecl.unlocated).or none :=
    congrArg Gist.head hgist
  have hblank : r.blank.map BlankDecl.unlocated = (p.blank.map BlankDecl.unlocated).or none :=
    congrArg Gist.blank hgist
  have hstates : r.readStates.map Ast.State.unlocated =
      (p.states.map Ast.State.unlocated).reverse ++ [] := congrArg Gist.states hgist
  rw [Option.or_none] at hname hhead hblank
  rw [List.append_nil] at hstates
  have harity : tape.arity = p.tape.rows.length := by
    simpa [TapeDecl.unlocated, TapeDecl.arity] using congrArg TapeDecl.arity htapes
  have hheads : ∀ d ∈ r.head, d.positions.length = tape.arity := by
    intro d hd
    rw [hd] at hhead
    obtain ⟨d', hd', heq⟩ := Option.map_eq_some_iff.1 hhead.symm
    have hpositions : d'.positions = d.positions := by
      simpa [HeadDecl.unlocated] using congrArg HeadDecl.positions heq
    rw [harity, ← hcount d' hd', hpositions]
  have hrules : (r.seenLine? .rules).isSome := by
    rw [isSome_seenLine?_iff, hgist]
    exact List.mem_cons_self
  refine ⟨_, finish_eq_ok_iff.2 ⟨hr.pending_ne hS.awaited.1, hr.pending_ne hS.awaited.2, tape, htape,
    hrules, hheads, rfl⟩, ?_⟩
  simp [Ast.Program.unlocated, htapes, hname, hhead, hblank, List.map_reverse, hstates]

end Reader

/-- **Reading undoes writing.** The text of a tree, in any layout, is read as that tree, up to the places
of its parts. -/
theorem parse_render (layout : Layout) (p : Ast.Program) (h : p.IsWritable)
    (hsize : (p.render layout).length ≤ maxProgramSize) (file : String) :
    ∃ tree, parse (p.render layout) file = .ok tree ∧ tree.unlocated = p.unlocated := by
  obtain ⟨S, hleads, hgist, hdone⟩ := continues_sourceLines layout h ⟨[], none, {}⟩ rfl (isDone_base {})
  obtain ⟨r, hr, hstands⟩ := hleads.reads { file := file } 1 (Reader.stands_start file)
  obtain ⟨tree, hfinish, htree⟩ := Reader.exists_finish hstands hdone hgist h.head_count
  have hlines : scanLines (p.render layout) = scanFrom 1 (p.sourceLines layout) := by
    rw [scanLines, Ast.Program.render, Text.splitLines_flatMap hleads.inline]
  exact ⟨tree, parse_eq_ok_iff.2 ⟨hsize, r, by rw [hlines]; exact hr, hfinish⟩, htree⟩

/-- Tabs and spaces, with another depth below the state `go`. -/
def mixedLayout : Layout where
  row := [' ']
  state := ['\t']
  transition name := if name = "go" then ['\t', ' '] else ['\t', '\t', ' ']
  row_unit := ⟨by decide, List.all_eq_true.1 rfl⟩
  state_unit := ⟨by decide, List.all_eq_true.1 rfl⟩
  transition_unit name := by split <;> exact ⟨by decide, List.all_eq_true.1 rfl⟩
  transition_deeper name := by split <;> decide

/-- A tree with symbols that have a meaning of their own in a text, an empty tape and an empty state. -/
def quotedTree : Ast.Program where
  name := some ⟨"count '#'", {}⟩
  tape := ⟨[[⟨.quoted "#", {}⟩, ⟨.bare ":", {}⟩, ⟨.blank, {}⟩], []], true, {}⟩
  head := some ⟨[2, 0], true, {}⟩
  blank := some ⟨"'", {}⟩
  states :=
    [ ⟨"go", [⟨[⟨.quoted "'", {}⟩, ⟨.bare "-", {}⟩], some [⟨.quoted " ", {}⟩, ⟨.quoted ",", {}⟩],
        ["<", "-"], "q.1", true, {}⟩], {}⟩,
      ⟨"q.1", [⟨[⟨.bare "R", {}⟩], none, ["R"], "end-of-run", false, {}⟩,
        ⟨[⟨.blank, {}⟩], some [⟨.quoted "_", {}⟩], ["S"], "go", false, {}⟩], {}⟩,
      ⟨"end-of-run", [], {}⟩ ]

theorem isStateName_of_all (c : Char) (cs : List Char) (hc : Text.isNameChar c = true)
    (hcs : (cs.all fun x => Text.isNameChar x || x == '.' || x == '-') = true) :
    IsStateName (String.ofList (c :: cs)) := by
  refine ⟨c, cs, rfl, hc, fun x hx => ?_⟩
  simpa [or_assoc] using List.all_eq_true.1 hcs x hx

theorem isWritable_quotedTree : quotedTree.IsWritable := by
  have hnumber : Spelling.IsWritable (.quoted "#") := .quoted (c := '#') rfl
  have hquote : Spelling.IsWritable (.quoted "'") := .quoted (c := '\'') rfl
  have hspace : Spelling.IsWritable (.quoted " ") := .quoted (c := ' ') rfl
  have hcomma : Spelling.IsWritable (.quoted ",") := .quoted (c := ',') rfl
  have hscore : Spelling.IsWritable (.quoted "_") := .quoted (c := '_') rfl
  have hcolon : Spelling.IsWritable (.bare ":") := .bare (c := ':') ⟨rfl, by decide⟩
  have hdash : Spelling.IsWritable (.bare "-") := .bare (c := '-') ⟨rfl, by decide⟩
  have hletter : Spelling.IsWritable (.bare "R") := .bare (c := 'R') ⟨rfl, by decide⟩
  have hgo : IsStateName "go" := isStateName_of_all 'g' ['o'] rfl rfl
  have hq : IsStateName "q.1" := isStateName_of_all 'q' ['.', '1'] rfl rfl
  have hend : IsStateName "end-of-run" := isStateName_of_all 'e' "nd-of-run".toList rfl rfl
  refine
    { name := ?_, tape := ?_, head := ?_, head_count := ?_, blank := ?_, states_ne := by simp [quotedTree],
      distinct := by decide, state_name := by simp [quotedTree, hgo, hq, hend], transitions := ?_ }
  · rintro d ⟨⟩
    refine ⟨by decide, rfl, fun c hc => ?_, rfl⟩
    have hall : ("count '#'".toList.all fun c => !Text.isLineBreak c) = true := rfl
    simpa using List.all_eq_true.1 hall c hc
  · refine ⟨by simp [quotedTree], by simp [quotedTree], ?_⟩
    simp [quotedTree, hnumber, hcolon, Spelling.IsWritable.blank]
  · rintro d ⟨⟩
    exact ⟨by simp, by decide, by decide +kernel⟩
  · rintro d ⟨⟩
    rfl
  · rintro d ⟨⟩
    exact ⟨'\'', rfl, rfl⟩
  · simp only [quotedTree, List.forall_mem_cons, List.not_mem_nil, false_implies, implies_true, and_true]
    refine ⟨?_, ?_, ?_⟩
    all_goals
      constructor <;>
        simp [hquote, hspace, hcomma, hscore, hdash, hletter, hgo, hq, hend, Spelling.IsWritable.blank]

theorem parse_render_quotedTree :
    String.ofList (quotedTree.render mixedLayout) =
      "name: count '#'\ntapes:\n ['#', :, _]\n []\nheads: [2, 0]\nblank: '''\nrules:\n\tgo:\n" ++
        "\t [''', -] -> [' ', ','], [<, -], q.1\n\tq.1:\n\t\t R, R, end-of-run\n" ++
        "\t\t _ -> '_', S, go\n\tend-of-run:\n" ∧
      quotedTree.IsWritable ∧ (quotedTree.render mixedLayout).length ≤ maxProgramSize ∧
      ∃ tree, parse (quotedTree.render mixedLayout) "m" = .ok tree ∧
        tree.unlocated = quotedTree.unlocated := by
  have hsize : (quotedTree.render mixedLayout).length ≤ maxProgramSize := by decide +kernel
  exact ⟨by decide +kernel, isWritable_quotedTree, hsize,
    parse_render mixedLayout quotedTree isWritable_quotedTree hsize "m"⟩

end TapeLang
