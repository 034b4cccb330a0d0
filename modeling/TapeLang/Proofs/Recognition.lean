import Mathlib
import TapeLang.Proofs.BlockLines
import TapeLang.Proofs.Renumbering
import TapeLang.Proofs.Stage

/-!
# Reading accepts exactly the outlines

A text is accepted exactly if it is a list of sections, each of which can be read by itself, no two of
them about the same thing, and the tree has what they give and nothing else.

* `Reader.Gathers`: what has been read is what the sections so far give;
* `Reader.Gathers.exists_feedAll`, `Reader.Gathers.exists_reads`: one more section;
* `readLines_eq_ok_iff`: the texts that are accepted, with their trees.
-/

namespace TapeLang

namespace Reader

variable {r r' r₁ : Reader} {line : Line} {lines : List Line}

/-! ### The lines of directives -/

/-- An unindented line is read as a directive. -/
theorem feed_directive_iff (hr : r.Nested) (hline : line.indent = []) :
    r.feed line = .ok r' ↔
      r.Settled ∧ ∃ d offset rest, line.Announces d offset rest ∧ r.IsFresh d ∧
        Declares (r.outside.note line d) line offset rest d r' := by
  rw [feed_eq_ok_iff]
  constructor
  · rintro ⟨r₁, henters, hhandles⟩
    obtain ⟨hsettled, rfl⟩ := (enters_unindented_iff hr hline).1 henters
    cases hhandles with
    | directive context content colon word fresh declares =>
      exact ⟨hsettled, _, _, _, ⟨_, content, colon, word, rfl⟩, fresh, declares⟩
    | row context | header context | transition context => cases context
  · rintro ⟨hsettled, d, _, rest, ⟨key, hcontent, hcolon, hword, rfl⟩, hfresh, hdeclares⟩
    refine ⟨_, (enters_unindented_iff hr hline).2 ⟨hsettled, rfl⟩, ?_⟩
    exact .directive rfl hcontent hcolon hword hfresh hdeclares

/-- The reader with a part that stands on one line. -/
def give (r : Reader) : Part → Reader
  | .name d => { r with name := some d }
  | .tape d => { r with tape := some d }
  | .head d => { r with head := some d }
  | .blank d => { r with blank := some d }
  | .rules _ => r

theorem outside_give (r : Reader) (line : Line) (part : Part) :
    ((r.outside.note line part.directive).give part) =
      ((r.note line part.directive).give part).outside := by
  cases part <;> rfl

/-- A directive has its value on its line, or leaves a block pending. -/
theorem declares_iff {d : Directive} {offset : Nat} {rest : List Char} :
    Declares r line offset rest d r' ↔
      (∃ part, part.directive = d ∧ Declared r.file line offset rest part ∧ r' = r.give part) ∨
      (Text.trim rest = [] ∧ ∃ block, (d = .tapes ∧ block = .tapes ∨ d = .rules ∧ block = .rules) ∧
        r' = { r with pending := some (block, line) }) := by
  constructor
  · intro h
    cases h with
    | name ne => exact .inl ⟨_, rfl, .name ne, rfl⟩
    | tape value => exact .inl ⟨_, rfl, .tape value, rfl⟩
    | head value number => exact .inl ⟨_, rfl, .head value number, rfl⟩
    | heads value numbers => exact .inl ⟨_, rfl, .heads value numbers, rfl⟩
    | blank value => exact .inl ⟨_, rfl, .blank value, rfl⟩
    | tapes bare => exact .inr ⟨bare, _, .inl ⟨rfl, rfl⟩, rfl⟩
    | rules bare => exact .inr ⟨bare, _, .inr ⟨rfl, rfl⟩, rfl⟩
  · rintro (⟨part, rfl, hpart, rfl⟩ | ⟨hbare, block, ⟨rfl, rfl⟩ | ⟨rfl, rfl⟩, rfl⟩)
    · cases hpart with
      | name ne => exact .name ne
      | tape value => exact .tape value
      | head value number => exact .head value number
      | heads value numbers => exact .heads value numbers
      | blank value => exact .blank value
    · exact .tapes hbare
    · exact .rules hbare

/-! ### What has been gathered -/

/-- The reader has read the part. -/
def Has (r : Reader) : Part → Prop
  | .name d => r.name = some d
  | .tape d => r.tapeDecl? = some d
  | .head d => r.head = some d
  | .blank d => r.blank = some d
  | .rules states => (r.seenLine? .rules).isSome ∧ r.readStates.reverse = states

theorem tapeDecl?_of_unseen (h : r.seenLine? .tapes = none) : r.tapeDecl? = r.tape := by
  simp [tapeDecl?, h]

theorem tapeDecl?_of_seen {header : Line} (h : r.seenLine? .tapes = some header) :
    r.tapeDecl? = some ⟨r.rows.reverse, true, header.place r.file⟩ := by
  rw [tapeDecl?, h]
  rfl

/-- There is at most one part about each thing. -/
theorem Has.eq {part other : Part} (h : r.Has part) (h' : r.Has other)
    (htopic : part.topic = other.topic) : part = other := by
  cases part <;> cases other <;> simp only [Part.topic, reduceCtorEq] at htopic
  case name.name => exact congrArg Part.name (Option.some.inj (h.symm.trans h'))
  case tape.tape => exact congrArg Part.tape (Option.some.inj (h.symm.trans h'))
  case head.head => exact congrArg Part.head (Option.some.inj (h.symm.trans h'))
  case blank.blank => exact congrArg Part.blank (Option.some.inj (h.symm.trans h'))
  case rules.rules => exact congrArg Part.rules (h.2.symm.trans h'.2)

/-- The reader is between sections, and has read the parts given by those so far, last first. -/
structure Gathers (r : Reader) (file : String) (parts : List Part) : Prop where
  nested : r.Nested
  settled : r.Settled
  file : r.file = file
  seen : r.seen.map Prod.fst = parts.map Part.directive
  has : ∀ part, r.Has part ↔ part ∈ parts
  rows : r.seenLine? .tapes = none → r.rows = []
  states : r.seenLine? .rules = none → r.readStates = []

theorem gathers_start (file : String) : Gathers { file := file } file [] where
  nested := nested_start file
  settled := settled_of_pending rfl
  file := rfl
  seen := rfl
  has part := by cases part <;> simp [Has, tapeDecl?, seenLine?]
  rows _ := rfl
  states _ := rfl

theorem isFresh_iff_topic {d : Directive} :
    r.IsFresh d ↔ d.topic ∉ (r.seen.map Prod.fst).map Directive.topic := by
  have htopic : ∀ d' : Directive, d'.topic = d.topic ↔
      d' = d ∨ ∃ v ∈ d.variants, d' = v.1 ∨ d' = v.2 := by
    intro d'
    cases d <;> cases d' <;> simp [Directive.topic, Directive.variants]
  simp only [IsFresh, seenLine?_eq_none_iff, List.mem_map (f := Directive.topic), htopic]
  constructor
  · rintro ⟨hd, hvariants⟩ ⟨d', hseen, rfl | ⟨v, hv, rfl | rfl⟩⟩
    · exact hd hseen
    · exact (hvariants v hv).1 hseen
    · exact (hvariants v hv).2 hseen
  · intro h
    refine ⟨fun hd => h ⟨d, hd, .inl rfl⟩, fun v hv => ⟨fun h₁ => ?_, fun h₂ => ?_⟩⟩
    · exact h ⟨v.1, h₁, .inr ⟨v, hv, .inl rfl⟩⟩
    · exact h ⟨v.2, h₂, .inr ⟨v, hv, .inr rfl⟩⟩

section Gathers

variable {file : String} {parts : List Part} {part : Part}

/-- A directive may be used if nothing has been said about the same thing. -/
theorem Gathers.isFresh_iff (hr : r.Gathers file parts) (part : Part) :
    r.IsFresh part.directive ↔ part.topic ∉ parts.map Part.topic := by
  have htopics : (parts.map Part.directive).map Directive.topic = parts.map Part.topic := by
    rw [List.map_map]
    exact List.map_congr_left fun part _ => part.topic_directive
  rw [isFresh_iff_topic, hr.seen, htopics, part.topic_directive]

/-- One more part. -/
theorem Gathers.cons (hr : r.Gathers file parts) (hfresh : part.topic ∉ parts.map Part.topic)
    (hnested : r'.Nested) (hsettled : r'.Settled) (hfile : r'.file = r.file)
    (hseen : ∃ line, r'.seen = (part.directive, line) :: r.seen) (hpart : r'.Has part)
    (hother : ∀ other, other.topic ≠ part.topic → (r'.Has other ↔ r.Has other))
    (hrows : part.directive ≠ .tapes → r'.rows = r.rows)
    (hstates : part.directive ≠ .rules → r'.readStates = r.readStates) :
    r'.Gathers file (part :: parts) := by
  obtain ⟨line, hseen⟩ := hseen
  have hline : ∀ d, r'.seenLine? d = none → part.directive ≠ d ∧ r.seenLine? d = none := by
    intro d hd
    rw [seenLine?_eq_none_iff, hseen, List.map_cons, List.mem_cons, not_or] at hd
    exact ⟨Ne.symm hd.1, seenLine?_eq_none_iff.2 hd.2⟩
  refine ⟨hnested, hsettled, hfile.trans hr.file, ?_, fun other => ?_, fun h => ?_, fun h => ?_⟩
  · rw [hseen, List.map_cons, List.map_cons, hr.seen]
  · by_cases htopic : other.topic = part.topic
    · -- nothing was known about this, so what is known now is the new part
      have hnot : other ∉ parts := fun h => hfresh (htopic ▸ List.mem_map_of_mem h)
      constructor
      · intro h
        exact List.mem_cons.2 (.inl (h.eq hpart htopic))
      · intro h
        rcases List.mem_cons.1 h with rfl | h
        · exact hpart
        · exact absurd h hnot
    · rw [hother other htopic, hr.has other, List.mem_cons, or_iff_right]
      rintro rfl
      exact htopic rfl
  · exact (hrows (hline _ h).1).trans (hr.rows (hline _ h).2)
  · exact (hstates (hline _ h).1).trans (hr.states (hline _ h).2)

/-- A section of one line gives its part. -/
theorem Gathers.give {offset : Nat} {rest : List Char} (hr : r.Gathers file parts)
    (hfresh : part.topic ∉ parts.map Part.topic) (hpart : Declared file line offset rest part)
    (hnested : ((r.outside.note line part.directive).give part).Nested) :
    ((r.outside.note line part.directive).give part).Gathers file (part :: parts) := by
  have hunseen := (hr.isFresh_iff part).2 hfresh
  have hother : ∀ other, other.topic ≠ part.topic →
      (((r.outside.note line part.directive).give part).Has other ↔ r.Has other) := by
    intro other htopic
    cases hpart <;> cases other <;>
      simp only [Part.topic, ne_eq, not_true_eq_false, reduceCtorEq, not_false_eq_true] at htopic <;>
      exact Iff.rfl
  cases hpart with
  | name | head | heads | blank =>
    exact hr.cons hfresh hnested (settled_of_pending rfl) rfl ⟨line, rfl⟩ rfl hother
      (fun _ => rfl) fun _ => rfl
  | tape =>
    have htapes : r.seenLine? .tapes = none := (hunseen.2 _ rfl).2
    exact hr.cons hfresh hnested (settled_of_pending rfl) rfl ⟨line, rfl⟩ (tapeDecl?_of_unseen htapes) hother
      (fun _ => rfl) fun _ => rfl

/-- A section of rows gives the tapes. -/
theorem Gathers.giveRows {rows : List (List Ast.Symbol)} {unit : Indent} (hr : r.Gathers file parts)
    (hfresh : .tape ∉ parts.map Part.topic) (hnested : r'.Nested)
    (h : r' = { r.note line .tapes with rows := rows.reverse ++ r.rows }.inside .tapes unit) :
    r'.Gathers file (.tape ⟨rows, true, line.place file⟩ :: parts) := by
  have hunseen : r.seenLine? .tapes = none :=
    ((hr.isFresh_iff (.tape ⟨rows, true, line.place file⟩)).2 hfresh).1
  have hrows : r'.rows = rows.reverse ++ r.rows := by rw [h]; rfl
  have hfile : r'.file = r.file := by rw [h]; rfl
  have hdecl : r'.tapeDecl? = some ⟨rows, true, line.place file⟩ := by
    have hseen : r'.seenLine? .tapes = some line := by rw [h]; rfl
    rw [tapeDecl?_of_seen hseen, hrows, hr.rows hunseen, hfile, hr.file]
    simp
  refine hr.cons hfresh hnested ?_ hfile ⟨line, ?_⟩ hdecl ?_ (fun h => absurd rfl h) ?_
  · rw [h]
    exact settled_of_pending rfl
  · rw [h]
    rfl
  · intro other htopic
    rw [h]
    cases other with
    | tape d => exact absurd rfl htopic
    | name | head | blank | rules => exact Iff.rfl
  · intro _
    rw [h]
    rfl

/-- A section of states gives the rules. -/
theorem Gathers.giveStates {states : List Ast.State} (hr : r.Gathers file parts)
    (hfresh : .rules ∉ parts.map Part.topic) (hnested : r'.Nested) (hsettled : r'.Settled)
    (hframe : r'.frame = (r.note line .rules).frame)
    (hstates : r'.readStates = states.reverse ++ r.readStates) :
    r'.Gathers file (.rules states :: parts) := by
  have hunseen : r.seenLine? .rules = none := ((hr.isFresh_iff (.rules states)).2 hfresh).1
  have hseen : r'.seen = (.rules, line) :: r.seen := congrArg Reader.seen hframe
  have hhas : r'.Has (.rules states) := by
    refine ⟨?_, ?_⟩
    · rw [seenLine?, hseen]
      rfl
    · rw [hstates, hr.states hunseen, List.append_nil, List.reverse_reverse]
  refine hr.cons hfresh hnested hsettled (congrArg Reader.file hframe :) ⟨line, hseen⟩ hhas ?_
    (fun _ => (congrArg Reader.rows hframe :)) (fun h => absurd rfl h)
  intro other htopic
  cases other with
  | name d => exact Eq.congr_left (congrArg Reader.name hframe :)
  | tape d => exact Eq.congr_left (congrArg Reader.tapeDecl? hframe :)
  | head d => exact Eq.congr_left (congrArg Reader.head hframe :)
  | blank d => exact Eq.congr_left (congrArg Reader.blank hframe :)
  | rules states => exact absurd rfl htopic

/-! ### One more section -/

/-- The header of a section that gives a part. -/
theorem Gathers.feed_header {offset : Nat} {rest : List Char} {d : Directive} (hr : r.Gathers file parts)
    (hline : line.indent = []) (hannounces : line.Announces d offset rest) (hfresh : r.IsFresh d)
    (h : Declares (r.outside.note line d) line offset rest d r') : r.feed line = .ok r' :=
  (feed_directive_iff hr.nested hline).2 ⟨hr.settled, d, offset, rest, hannounces, hfresh, h⟩

/-- The first state below the header of the rules is the first of all. -/
theorem Gathers.map_name_afterHeader {first : Line} (hr : r.Gathers file parts)
    (hunseen : r.seenLine? .rules = none) (d : Directive) (name : String) :
    ((r.note line d).afterHeader first.indent first name).readStates.map Ast.State.name = [name] := by
  have hnone : (r.note line d).readStates = [] := hr.states hunseen
  rw [readStates_afterHeader, hnone]
  rfl

/-- **A section about something new is read, and gives its part.** -/
theorem Gathers.exists_feedAll {s : Section} (hr : r.Gathers file parts) (h : s.Reads file part)
    (hfresh : part.topic ∉ parts.map Part.topic) :
    ∃ r', r.feedAll s.lines = .ok r' ∧ r'.Gathers file (part :: parts) := by
  have hunseen := (hr.isFresh_iff part).2 hfresh
  obtain rfl := hr.file
  cases h with
  | line announces declared body =>
    have hfeed := hr.feed_header s.header_indent announces hunseen
      (declares_iff.2 (.inl ⟨part, rfl, declared, rfl⟩))
    refine ⟨_, ?_, hr.give hfresh declared (hr.nested.feed hfeed)⟩
    rw [Section.lines, body]
    exact feedAll_cons_eq_ok_iff.2 ⟨_, hfeed, rfl⟩
  | @tapes offset rest unit rows announces bare ne level reads =>
    have hfeed := hr.feed_header s.header_indent announces hunseen (.tapes bare)
    have hrows : ((r.note s.header .tapes).below .tapes s.header).feedAll s.body = _ :=
      (feedAll_tapes_iff ne s.body_indent).2 ⟨unit, rows, level, reads, rfl⟩
    have hlines := feedAll_cons_eq_ok_iff.2 ⟨_, hfeed, hrows⟩
    exact ⟨_, hlines, hr.giveRows hfresh (hr.nested.feedAll hlines) rfl⟩
  | @rules offset rest first lines name states announces bare body value reads =>
    have hfeed := hr.feed_header s.header_indent announces hunseen (.rules bare)
    have hbody := s.body_indent
    rw [body, List.forall_mem_cons] at hbody
    have hnew : name ∉ (r.note s.header .rules).readStates.map Ast.State.name := by
      have hnone : (r.note s.header .rules).readStates = [] := hr.states hunseen.1
      simp [hnone]
    have hfirst : ((r.note s.header .rules).below .rules s.header).feed first = _ :=
      (feed_first_header_iff hbody.1).2 ⟨name, value, hnew, rfl⟩
    have hin : ((r.note s.header .rules).afterHeader first.indent first name).InRules first.indent none
        ⟨name, [], first.place r.file⟩ := inRules_afterHeader hbody.1 name
    obtain ⟨r', hrest, hframe, hsettled, hstates⟩ := hin.exists_feedAll reads hbody.2 rfl
      (hr.map_name_afterHeader hunseen.1 .rules name)
    have hlines : r.feedAll s.lines = .ok r' := by
      rw [Section.lines, body]
      exact feedAll_cons_eq_ok_iff.2 ⟨_, hfeed, feedAll_cons_eq_ok_iff.2 ⟨_, hfirst, hrest⟩⟩
    exact ⟨r', hlines, hr.giveStates hfresh (hr.nested.feedAll hlines) hsettled hframe hstates⟩

/-- **A section that is read gives a part about something new.** -/
theorem Gathers.exists_reads {s : Section} (hr : r.Gathers file parts)
    (h : r.feedAll s.lines = .ok r') (hsettled : r'.Settled) :
    ∃ part, s.Reads file part ∧ part.topic ∉ parts.map Part.topic := by
  obtain rfl := hr.file
  obtain ⟨r₁, hfeed, hbody⟩ := feedAll_cons_eq_ok_iff.1 h
  obtain ⟨-, d, offset, rest, hannounces, hfresh, hdeclares⟩ :=
    (feed_directive_iff hr.nested s.header_indent).1 hfeed
  rcases declares_iff.1 hdeclares with
    ⟨part, rfl, hpart, rfl⟩ | ⟨hbare, block, ⟨rfl, rfl⟩ | ⟨rfl, rfl⟩, rfl⟩
  · refine ⟨part, .line hannounces hpart ?_, (hr.isFresh_iff part).1 hfresh⟩
    -- the reader is outside every block, with nothing pending
    cases hlines : s.body with
    | nil => rfl
    | cons first lines =>
      rw [hlines] at hbody
      obtain ⟨r₂, hfirst, -⟩ := feedAll_cons_eq_ok_iff.1 hbody
      have hindent := s.body_indent first (hlines ▸ List.mem_cons_self)
      exact absurd hfirst (outside_give r s.header part ▸ feed_outside_ne_ok hindent)
  · have hne : s.body ≠ [] := by
      intro hnil
      rw [hnil] at hbody
      cases hbody
      exact hsettled.1 s.header rfl
    have hbody : ((r.note s.header .tapes).below .tapes s.header).feedAll s.body = .ok r' := hbody
    obtain ⟨unit, rows, hunit, hrows, -⟩ := (feedAll_tapes_iff hne s.body_indent).1 hbody
    refine ⟨_, .tapes hannounces hbare hne hunit hrows, ?_⟩
    exact (hr.isFresh_iff (.tape ⟨rows, true, s.header.place r.file⟩)).1 hfresh
  · have hbody : ((r.note s.header .rules).below .rules s.header).feedAll s.body = .ok r' := hbody
    cases hlines : s.body with
    | nil =>
      rw [hlines] at hbody
      cases hbody
      exact absurd rfl (hsettled.2 s.header)
    | cons first lines =>
      rw [hlines] at hbody
      have hindents := s.body_indent
      rw [hlines, List.forall_mem_cons] at hindents
      obtain ⟨r₂, hfirst, hrest⟩ := feedAll_cons_eq_ok_iff.1 hbody
      obtain ⟨name, hname, -, rfl⟩ := (feed_first_header_iff hindents.1).1 hfirst
      have hin : ((r.note s.header .rules).afterHeader first.indent first name).InRules first.indent
          none ⟨name, [], first.place r.file⟩ := inRules_afterHeader hindents.1 name
      obtain ⟨states, hstates⟩ := hin.exists_readsOn hindents.2 hrest
      rw [hr.map_name_afterHeader hfresh.1 .rules name] at hstates
      exact ⟨_, .rules hannounces hbare hlines hname hstates, (hr.isFresh_iff (.rules states)).1 hfresh⟩

/-! ### All sections -/

theorem feedAll_append_eq_ok_iff {lines' : List Line} :
    r.feedAll (lines ++ lines') = .ok r' ↔
      ∃ r₁, r.feedAll lines = .ok r₁ ∧ r₁.feedAll lines' = .ok r' := by
  constructor
  · intro h
    induction lines generalizing r with
    | nil => exact ⟨r, rfl, h⟩
    | cons line lines ih =>
      obtain ⟨r₁, h₁, h⟩ := feedAll_cons_eq_ok_iff.1 h
      obtain ⟨r₂, h₂, h⟩ := ih h
      exact ⟨r₂, feedAll_cons_eq_ok_iff.2 ⟨r₁, h₁, h₂⟩, h⟩
  · rintro ⟨r₁, h₁, h⟩
    exact feedAll_append h₁ h

/-- A block that has to have a line has it before the next section. -/
theorem settled_of_feedAll {sections : List Section} (hr : r.Nested) (hsettled : r'.Settled)
    (h : r.feedAll (sections.flatMap Section.lines) = .ok r') : r.Settled := by
  cases sections with
  | nil =>
    cases h
    exact hsettled
  | cons s sections =>
    rw [List.flatMap_cons, Section.lines, List.cons_append] at h
    obtain ⟨r₁, hfeed, -⟩ := feedAll_cons_eq_ok_iff.1 h
    exact ((feed_directive_iff hr s.header_indent).1 hfeed).1

/-- Sections about different things are read, and give their parts. -/
theorem Gathers.exists_feedAll_sections {sections : List Section} {new : List Part}
    (hr : r.Gathers file parts) (h : List.Forall₂ (Section.Reads file) sections new)
    (hnodup : ((new.reverse ++ parts).map Part.topic).Nodup) :
    ∃ r', r.feedAll (sections.flatMap Section.lines) = .ok r' ∧
      r'.Gathers file (new.reverse ++ parts) := by
  induction h generalizing r parts with
  | nil => exact ⟨r, rfl, hr⟩
  | @cons s part sections new hs _ ih =>
    rw [List.reverse_cons, List.append_assoc, List.singleton_append] at hnodup ⊢
    have hfresh : part.topic ∉ parts.map Part.topic := by
      rw [List.map_append, List.map_cons] at hnodup
      exact (List.nodup_cons.1 (List.nodup_append.1 hnodup).2.1).1
    obtain ⟨r₁, h₁, hr₁⟩ := hr.exists_feedAll hs hfresh
    obtain ⟨r', h', hr'⟩ := ih hr₁ hnodup
    exact ⟨r', feedAll_append h₁ h', hr'⟩

/-- Sections that are read give parts about different things. -/
theorem Gathers.exists_parts {sections : List Section} (hr : r.Gathers file parts)
    (hparts : (parts.map Part.topic).Nodup) (hsettled : r'.Settled)
    (h : r.feedAll (sections.flatMap Section.lines) = .ok r') :
    ∃ new, List.Forall₂ (Section.Reads file) sections new ∧
      ((new.reverse ++ parts).map Part.topic).Nodup ∧ r'.Gathers file (new.reverse ++ parts) := by
  induction sections generalizing r parts with
  | nil =>
    cases h
    exact ⟨[], .nil, hparts, hr⟩
  | cons s sections ih =>
    obtain ⟨r₁, h₁, h⟩ := feedAll_append_eq_ok_iff.1 h
    have hsettled₁ := settled_of_feedAll (hr.nested.feedAll h₁) hsettled h
    obtain ⟨part, hs, hfresh⟩ := hr.exists_reads h₁ hsettled₁
    -- the section is read in one way only
    obtain ⟨r₂, h₂, hr₁⟩ := hr.exists_feedAll hs hfresh
    cases h₁.symm.trans h₂
    have hnodup : ((part :: parts).map Part.topic).Nodup := List.nodup_cons.2 ⟨hfresh, hparts⟩
    obtain ⟨new, hnew, hnodup, hr'⟩ := ih hr₁ hnodup h
    refine ⟨part :: new, .cons hs hnew, ?_⟩
    rw [List.reverse_cons, List.append_assoc, List.singleton_append]
    exact ⟨hnodup, hr'⟩

/-- The tree has what has been read and nothing else. -/
theorem Gathers.finish_iff {tree : Ast.Program} (hr : r.Gathers file parts) :
    r.finish = .ok tree ↔
      (∀ part, tree.Has part ↔ part ∈ parts) ∧
        (∀ d ∈ tree.head, d.positions.length = tree.tape.arity) ∧ tree.sourcePath = some file := by
  obtain rfl := hr.file
  rw [finish_eq_ok_iff, and_iff_right hr.settled.1, and_iff_right hr.settled.2]
  simp only [← hr.has]
  constructor
  · rintro ⟨tape, htape, hrules, hcount, rfl⟩
    refine ⟨fun part => ?_, hcount, rfl⟩
    cases part with
    | name | head | blank => exact Iff.rfl
    | tape d => simp [Ast.Program.Has, Has, htape]
    | rules states => simp [Ast.Program.Has, Has, hrules]
  · rintro ⟨hhas, hcount, hpath⟩
    have htape : r.tapeDecl? = some tree.tape := (hhas (.tape tree.tape)).1 rfl
    obtain ⟨hrules, hstates⟩ := (hhas (.rules tree.states)).1 rfl
    have hname : tree.name = r.name := Option.ext fun d => hhas (.name d)
    have hhead : tree.head = r.head := Option.ext fun d => hhas (.head d)
    have hblank : tree.blank = r.blank := Option.ext fun d => hhas (.blank d)
    refine ⟨tree.tape, htape, hrules, by rwa [← hhead], ?_⟩
    rw [hstates, ← hname, ← hhead, ← hblank, ← hpath]

end Gathers

end Reader

/-- **A text is accepted exactly if it consists of sections that can be read, no two of them about the
same thing, and its tree has exactly what they give.** -/
theorem readLines_eq_ok_iff {file : String} {lines : List Line} {tree : Ast.Program} :
    readLines file lines = .ok tree ↔
      ∃ (sections : List Section) (parts : List Part), lines = sections.flatMap Section.lines ∧
        List.Forall₂ (Section.Reads file) sections parts ∧ (parts.map Part.topic).Nodup ∧
        (∀ part, tree.Has part ↔ part ∈ parts) ∧
        (∀ d ∈ tree.head, d.positions.length = tree.tape.arity) ∧ tree.sourcePath = some file := by
  rw [readLines, bind_eq_ok]
  constructor
  · rintro ⟨r, hread, hfinish⟩
    obtain ⟨front, sections, hfront, rfl⟩ := exists_sections lines
    cases front with
    | cons line front =>
      -- at the beginning no block is pending
      obtain ⟨r₁, hfeed, -⟩ := Reader.feedAll_cons_eq_ok_iff.1 hread
      exact absurd hfeed (Reader.feed_outside_ne_ok (r := { file := file }) (hfront line List.mem_cons_self))
    | nil =>
      have hends := Reader.finish_eq_ok_iff.1 hfinish
      obtain ⟨parts, hparts, hnodup, hr⟩ :=
        (Reader.gathers_start file).exists_parts List.nodup_nil ⟨hends.1, hends.2.1⟩ hread
      rw [List.append_nil] at hnodup hr
      obtain ⟨hhas, hcount, hpath⟩ := hr.finish_iff.1 hfinish
      refine ⟨sections, parts, rfl, hparts, ?_, fun part => ?_, hcount, hpath⟩
      · rwa [List.map_reverse, List.nodup_reverse] at hnodup
      · rw [hhas part, List.mem_reverse]
  · rintro ⟨sections, parts, rfl, hparts, hnodup, hhas, hcount, hpath⟩
    obtain ⟨r, hread, hr⟩ := (Reader.gathers_start file).exists_feedAll_sections hparts (by
      rwa [List.append_nil, List.map_reverse, List.nodup_reverse])
    rw [List.append_nil] at hr
    refine ⟨r, hread, hr.finish_iff.2 ⟨fun part => ?_, hcount, hpath⟩⟩
    rw [hhas part, List.mem_reverse]

end TapeLang
