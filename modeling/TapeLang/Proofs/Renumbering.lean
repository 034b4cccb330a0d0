import Mathlib
import TapeLang.Proofs.Reader
import TapeLang.Proofs.Relocation

/-!
# Reading lines under other numbers

A reader uses the number of a line and its physical form only to say where something stands. So reading
commutes with renumbering: the lines under other numbers are read as the same tree with other locations,
or refused for the same reason at the same column of the same line.

* `Line.renumber`, `Reader.renumber`, `ReadError.renumber`: lines, readers and errors under other numbers,
  without the physical lines;
* `Outcome.renumber`: the outcome of reading under other numbers;
* `Reader.feed_renumber`: one line;
* `readLines`, `readLines_renumber`: all lines of a text.
-/

namespace TapeLang

/-! ### Other numbers -/

section Renumber

variable (ν : Nat → Nat)

/-- A line number of a location, which may be negative if it is no line of a text. -/
def renumberInt : Int → Int
  | .ofNat n => .ofNat (ν n)
  | .negSucc n => .negSucc n

/-- The location with its line under another number. -/
def Location.renumber (l : Location) : Location := { l with line := renumberInt ν l.line }

/-- The line under another number, without its physical form. -/
def Line.renumber (l : Line) : Line := { l with number := ν l.number, raw := [] }

/-- The violation with the lines that it mentions under other numbers. -/
def Violation.renumber : Violation → Violation
  | .repeatedDirective d first => .repeatedDirective d (ν first)
  | .repeatedState name first => .repeatedState name (renumberInt ν first)
  | v => v

/-- The error on a line under another number, without its physical form. -/
def SourceError.renumber (e : SourceError) : SourceError :=
  { e with violation := e.violation.renumber ν, line := renumberInt ν e.line, snippet := [] }

/-- The error with the lines under other numbers. -/
def ReadError.renumber : ReadError → ReadError
  | .refused e => .refused (e.renumber ν)
  | e => e

/-- The outcome of reading with the lines under other numbers; `f` renumbers the result. -/
def Outcome.renumber {α β : Type} (f : α → β) : Except ReadError α → Except ReadError β
  | .ok a => .ok (f a)
  | .error e => .error (e.renumber ν)

/-- The reader that has read the same lines under other numbers. -/
def Reader.renumber (r : Reader) : Reader :=
  { r with
    pending := r.pending.map (Prod.map id (Line.renumber ν))
    seen := r.seen.map (Prod.map id (Line.renumber ν))
    name := r.name.map (Ast.NameDecl.relocate (Location.renumber ν))
    tape := r.tape.map (Ast.TapeDecl.relocate (Location.renumber ν))
    rows := r.rows.map (List.map (Ast.Symbol.relocate (Location.renumber ν)))
    head := r.head.map (Ast.HeadDecl.relocate (Location.renumber ν))
    blank := r.blank.map (Ast.BlankDecl.relocate (Location.renumber ν))
    states := r.states.map (Ast.State.relocate (Location.renumber ν))
    current := r.current.map (Ast.State.relocate (Location.renumber ν)) }

end Renumber

theorem renumberInt_id : renumberInt id = id := by
  funext z
  cases z <;> rfl

theorem Location.renumber_id : Location.renumber id = id := by
  funext l
  simp [Location.renumber, renumberInt_id]

/-- The code does not depend on the numbers. -/
theorem Violation.code_renumber (ν : Nat → Nat) (v : Violation) : (v.renumber ν).code = v.code := by
  cases v <;> rfl

theorem Violation.renumber_id (v : Violation) : v.renumber id = v := by
  cases v <;> simp [Violation.renumber, renumberInt_id]

/-- The vectors of a transition have the same lengths in another place. -/
theorem Ast.Transition.vectorViolation?_relocate (τ : Location → Location) (t : Ast.Transition) :
    (t.relocate τ).vectorViolation? = t.vectorViolation? := by
  have hwrite : ((t.write.map (List.map (Ast.Symbol.relocate τ))).map List.length).getD t.read.length =
      (t.write.map List.length).getD t.read.length := by
    cases t.write <;> simp
  simp only [Ast.Transition.vectorViolation?, Ast.Transition.relocate, List.length_map,
    List.isEmpty_map, hwrite]

/-- What is wrong with the vectors names no line. -/
theorem Ast.Transition.renumber_vectorViolation? (ν : Nat → Nat) {t : Ast.Transition} {v : Violation}
    (h : t.vectorViolation? = some v) : v.renumber ν = v := by
  unfold Ast.Transition.vectorViolation? at h
  dsimp only at h
  split at h
  · cases h
  · split at h
    · cases h; rfl
    · split at h
      · cases h
      · cases h; rfl

/-- Outcomes are renumbered step by step. -/
theorem Outcome.renumber_bind {α β γ δ : Type} {ν : Nat → Nat} {f : α → γ} {g : β → δ}
    {x : Except ReadError α} {y : Except ReadError γ} {k : α → Except ReadError β}
    {k' : γ → Except ReadError δ} (hx : y = Outcome.renumber ν f x)
    (hk : ∀ a, k' (f a) = Outcome.renumber ν g (k a)) :
    y >>= k' = Outcome.renumber ν g (x >>= k) := by
  subst hx
  cases x with
  | error e => rfl
  | ok a => exact hk a

namespace Reader

variable (ν : Nat → Nat) (r : Reader) (line : Line)

/-! ### Places -/

theorem here_renumber (offset : Nat) :
    (r.renumber ν).here (line.renumber ν) offset = Location.renumber ν ∘ r.here line offset := rfl

theorem seenLine?_renumber (d : Directive) :
    (r.renumber ν).seenLine? d = (r.seenLine? d).map (Line.renumber ν) := by
  unfold seenLine? renumber
  simp only [List.find?_map, Option.map_map]
  rfl

theorem findState?_renumber (name : String) :
    (r.renumber ν).findState? name =
      (r.findState? name).map (Ast.State.relocate (Location.renumber ν)) := by
  have hstates : (r.renumber ν).current.toList ++ (r.renumber ν).states =
      (r.current.toList ++ r.states).map (Ast.State.relocate (Location.renumber ν)) := by
    rw [List.map_append]
    cases h : r.current <;> simp [renumber, h]
  unfold findState?
  rw [hstates, List.find?_map]
  rfl

theorem isDeeper_renumber :
    (r.renumber ν).indents.isDeeper (line.renumber ν).indent = r.indents.isDeeper line.indent := rfl

/-! ### Blocks -/

theorem settle_renumber :
    (r.renumber ν).settle = Outcome.renumber ν (renumber ν) r.settle := by
  unfold settle
  rcases h : r.pending with - | ⟨_ | _ | _ | _, header⟩ <;> simp only [renumber, h] <;> rfl

theorem leave_renumber :
    (r.renumber ν).leave (line.renumber ν) = Outcome.renumber ν (renumber ν) (r.leave line) := by
  refine Outcome.renumber_bind (settle_renumber ν r) fun r₁ => ?_
  rw [isDeeper_renumber]
  split
  · rfl
  · have hdedent : (r₁.renumber ν).indents.dedentTo (line.renumber ν).indent =
        r₁.indents.dedentTo line.indent := rfl
    rw [hdedent]
    cases r₁.indents.dedentTo line.indent <;> rfl

theorem enter_renumber :
    (r.renumber ν).enter (line.renumber ν) = Outcome.renumber ν (renumber ν) (r.enter line) := by
  have hleave := leave_renumber ν r line
  have hpending : (r.renumber ν).pending = r.pending.map (Prod.map id (Line.renumber ν)) := rfl
  have hpush : (r.renumber ν).indents.push (line.renumber ν).indent = r.indents.push line.indent := rfl
  unfold enter
  rw [hpending, hpush]
  rcases r.pending with - | ⟨block, header⟩
  · exact hleave
  · cases r.indents.push line.indent with
    | error e => exact hleave
    | ok indents => rfl

/-! ### Lines -/

theorem readValue_renumber {α β : Type} {f : α → β} {p : Pattern α} {p' : Pattern β}
    (h : Pattern.Relabels f p p') (offset : Nat) (kind : LineKind) (text : List Char) :
    (r.renumber ν).readValue (line.renumber ν) offset kind p' text =
      Outcome.renumber ν f (r.readValue line offset kind p text) := by
  unfold readValue
  rw [h.parse]
  cases p.parse text <;> rfl

theorem readIndex_renumber (digits : List Char) :
    readIndex digits = Outcome.renumber ν id (readIndex digits) := by
  unfold readIndex
  cases Text.numeral? digits <;> rfl

theorem mapM_readIndex_renumber (numerals : List (List Char)) :
    numerals.mapM readIndex = Outcome.renumber ν id (numerals.mapM readIndex) := by
  cases h : numerals.mapM readIndex with
  | ok xs => rfl
  | error e =>
    -- no numeral is refused: its number is missing, and that names no line
    obtain ⟨digits, -, hdigits⟩ := exists_of_mapM_eq_error h
    unfold readIndex at hdigits
    split at hdigits
    · cases hdigits
    · cases hdigits; rfl

theorem openBlock_renumber (d : Directive) (block : Block) (offset : Nat) (rest : List Char) :
    (r.renumber ν).openBlock (line.renumber ν) d block offset rest =
      Outcome.renumber ν (renumber ν) (r.openBlock line d block offset rest) := by
  unfold openBlock
  split <;> rfl

theorem declare_renumber (d : Directive) (offset : Nat) (rest : List Char) :
    (r.renumber ν).declare (line.renumber ν) d offset rest =
      Outcome.renumber ν (renumber ν) (r.declare line d offset rest) := by
  cases d with
  | name =>
    simp only [declare]
    split <;> rfl
  | tape =>
    have hrow := LineRule.relabels_tapeValue (Location.renumber ν) (r.here line offset)
    refine Outcome.renumber_bind (readValue_renumber ν r line hrow offset .tapeValue rest) fun row => ?_
    rfl
  | tapes => exact openBlock_renumber ν r line .tapes .tapes offset rest
  | head =>
    refine Outcome.renumber_bind
      (readValue_renumber ν r line (.refl LineRule.headValue) offset .headValue rest) fun digits => ?_
    exact Outcome.renumber_bind (readIndex_renumber ν digits) fun _ => rfl
  | heads =>
    refine Outcome.renumber_bind
      (readValue_renumber ν r line (.refl LineRule.headsValue) offset .headsValue rest) fun numerals => ?_
    exact Outcome.renumber_bind (mapM_readIndex_renumber ν numerals) fun _ => rfl
  | blank =>
    have hsymbol := LineRule.relabels_blankValue (Location.renumber ν) (r.here line offset)
    exact Outcome.renumber_bind (readValue_renumber ν r line hsymbol offset .blankValue rest) fun _ => rfl
  | rules => exact openBlock_renumber ν r line .rules .rules offset rest

theorem directiveLine_renumber :
    (r.renumber ν).directiveLine (line.renumber ν) =
      Outcome.renumber ν (renumber ν) (r.directiveLine line) := by
  have hcontent : (line.renumber ν).content = line.content := rfl
  unfold directiveLine
  dsimp only
  rw [hcontent]
  cases line.content.dropWhile (· != ':') with
  | nil => rfl
  | cons _ rest =>
    dsimp only
    cases Directive.ofText? (String.ofList (Text.trim (line.content.takeWhile (· != ':')))) with
    | none => rfl
    | some d =>
      dsimp only
      rw [seenLine?_renumber]
      cases r.seenLine? d with
      | some first => rfl
      | none =>
        simp only [Option.map_none, seenLine?_renumber, Option.isSome_map]
        split
        · rfl
        · exact declare_renumber ν { r with seen := (d, line) :: r.seen } line d _ rest

theorem rowLine_renumber :
    (r.renumber ν).rowLine (line.renumber ν) = Outcome.renumber ν (renumber ν) (r.rowLine line) := by
  have hrow := LineRule.relabels_tapeRow (Location.renumber ν) (r.here line line.indent.length)
  exact Outcome.renumber_bind
    (readValue_renumber ν r line hrow line.indent.length .tapeRow line.content) fun _ => rfl

theorem flush_renumber : (r.renumber ν).flush = r.flush.renumber ν := by
  have hcurrent : (r.renumber ν).current =
      r.current.map (Ast.State.relocate (Location.renumber ν)) := rfl
  unfold flush
  rw [hcurrent]
  cases r.current with
  | none => rfl
  | some s => simp [renumber, Ast.State.relocate]

theorem headerLine_renumber :
    (r.renumber ν).headerLine (line.renumber ν) =
      Outcome.renumber ν (renumber ν) (r.headerLine line) := by
  have hcontent : (line.renumber ν).content = line.content := rfl
  unfold headerLine
  rw [hcontent]
  cases LineRule.stateHeader.parse line.content with
  | error m =>
    dsimp only
    split <;> rfl
  | ok name =>
    dsimp only
    rw [findState?_renumber, flush_renumber]
    cases r.findState? name <;> rfl

theorem transitionLine_renumber :
    (r.renumber ν).transitionLine (line.renumber ν) =
      Outcome.renumber ν (renumber ν) (r.transitionLine line) := by
  have htransition := (LineRule.relabels_transition (Location.renumber ν)
    (r.here line line.indent.length)).parse line.content
  have hcontent : (line.renumber ν).content = line.content := rfl
  have hindent : (line.renumber ν).indent = line.indent := rfl
  have hcurrent : (r.renumber ν).current =
      r.current.map (Ast.State.relocate (Location.renumber ν)) := rfl
  unfold transitionLine
  dsimp only
  rw [hcontent, hindent, here_renumber, htransition, hcurrent]
  cases (LineRule.transition (r.here line line.indent.length)).parse line.content with
  | error m =>
    dsimp only [Except.map]
    split <;> rfl
  | ok t =>
    dsimp only [Except.map]
    rw [Ast.Transition.vectorViolation?_relocate]
    cases hv : t.vectorViolation? with
    | some v =>
      dsimp only
      nth_rewrite 1 [← Ast.Transition.renumber_vectorViolation? ν hv]
      rfl
    | none => cases r.current <;> rfl

/-- **A line under another number is read as the same line,** up to the places. -/
theorem feed_renumber :
    (r.renumber ν).feed (line.renumber ν) = Outcome.renumber ν (renumber ν) (r.feed line) := by
  refine Outcome.renumber_bind (enter_renumber ν r line) fun r₁ => ?_
  have hcontexts : (r₁.renumber ν).contexts = r₁.contexts := rfl
  rw [hcontexts]
  rcases r₁.contexts with - | ⟨_ | _ | _ | _, blocks⟩
  · rfl
  · exact directiveLine_renumber ν r₁ line
  · exact rowLine_renumber ν r₁ line
  · exact headerLine_renumber ν r₁ line
  · exact transitionLine_renumber ν r₁ line

theorem feedAll_renumber (lines : List Line) :
    (r.renumber ν).feedAll (lines.map (Line.renumber ν)) =
      Outcome.renumber ν (renumber ν) (r.feedAll lines) := by
  induction lines generalizing r with
  | nil => rfl
  | cons line lines ih => exact Outcome.renumber_bind (feed_renumber ν r line) ih

/-! ### The tree -/

theorem tapeDecl?_renumber :
    (r.renumber ν).tapeDecl? =
      r.tapeDecl?.map (Ast.TapeDecl.relocate (Location.renumber ν)) := by
  unfold tapeDecl?
  rw [seenLine?_renumber]
  cases r.seenLine? .tapes with
  | none => rfl
  | some header => simp [renumber, Ast.TapeDecl.relocate]; rfl

variable {ν}

/-- What is wrong with the text as a whole is said of its first line. -/
theorem refuseWhole_renumber (hν : ν 1 = 1) {α β : Type} (f : α → β) (file : String)
    {v : Violation} (hv : v.renumber ν = v) :
    refuseWhole file v = Outcome.renumber ν f (refuseWhole file v) := by
  have hline : renumberInt ν 1 = 1 := congrArg Int.ofNat hν
  simp only [refuseWhole, Outcome.renumber, ReadError.renumber, SourceError.renumber, hv, hline]

theorem assemble_renumber (hν : ν 1 = 1) :
    (r.renumber ν).assemble =
      Outcome.renumber ν (Ast.Program.relocate (Location.renumber ν)) r.assemble := by
  have hhead : (r.renumber ν).head = r.head.map (Ast.HeadDecl.relocate (Location.renumber ν)) := rfl
  have hstates : (r.renumber ν).states.reverse =
      r.states.reverse.map (Ast.State.relocate (Location.renumber ν)) := by
    rw [List.map_reverse]
    rfl
  unfold assemble
  rw [tapeDecl?_renumber, hstates, hhead]
  simp only [seenLine?_renumber]
  cases r.tapeDecl? with
  | none => exact refuseWhole_renumber hν _ r.file rfl
  | some tape =>
    cases r.seenLine? .rules with
    | none => exact refuseWhole_renumber hν _ r.file rfl
    | some _ =>
      have harity : (tape.relocate (Location.renumber ν)).arity = tape.arity := List.length_map _
      cases r.head with
      | none => rfl
      | some head =>
        dsimp only [Option.map_some, Ast.HeadDecl.relocate]
        rw [harity]
        split
        · rfl
        · cases r.seenLine? (if head.multi then .heads else .head) <;> rfl

theorem finish_renumber (hν : ν 1 = 1) :
    (r.renumber ν).finish =
      Outcome.renumber ν (Ast.Program.relocate (Location.renumber ν)) r.finish := by
  refine Outcome.renumber_bind (settle_renumber ν r) fun r₁ => ?_
  rw [flush_renumber]
  exact assemble_renumber r₁.flush hν

end Reader

/-! ### Texts -/

/-- The tree of the logical lines of a text. -/
def readLines (file : String) (lines : List Line) : Except ReadError Ast.Program := do
  (← Reader.feedAll { file := file } lines).finish

/-- A text that is not too long is read by its logical lines. -/
theorem parse_eq_readLines {text : List Char} (h : text.length ≤ maxProgramSize) (file : String) :
    parse text file = readLines file (scanLines text) := if_neg (Nat.not_lt.2 h)

/-- **Reading commutes with renumbering the lines,** if the first line keeps its number. -/
theorem readLines_renumber {ν : Nat → Nat} (hν : ν 1 = 1) (file : String) (lines : List Line) :
    readLines file (lines.map (Line.renumber ν)) =
      Outcome.renumber ν (Ast.Program.relocate (Location.renumber ν)) (readLines file lines) :=
  Outcome.renumber_bind (Reader.feedAll_renumber ν { file := file } lines)
    fun r => Reader.finish_renumber r hν

/-- Lines that are equal but for their numbers and their physical forms have the same outcome, up to
both. -/
theorem readLines_congr {ν : Nat → Nat} (hν : ν 1 = 1) (file : String) {lines lines' : List Line}
    (h : lines.map (Line.renumber ν) = lines'.map (Line.renumber ν)) :
    Outcome.renumber ν (Ast.Program.relocate (Location.renumber ν)) (readLines file lines) =
      Outcome.renumber ν (Ast.Program.relocate (Location.renumber ν)) (readLines file lines') := by
  rw [← readLines_renumber hν, h, readLines_renumber hν]

end TapeLang
