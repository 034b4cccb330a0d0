import Mathlib
import TapeLang.Proofs.Blocks

/-!
# A stack of levels is a chain of prefixes

Levels are opened and closed in any order, and a call that cannot be met is refused. Whatever is asked, the
levels stay a chain in which each is a proper prefix of the next, so that a level stands in one place only.

* `IndentStack.Operation`, `IndentStack.Reply`, `IndentStack.perform`: what can be asked of a stack;
* `IndentStack.levels_split`, `IndentStack.IsChained.dedentTo_eq`: the levels that closing leaves;
* `IndentStack.IsChained.perform`: what one call keeps;
* `indent_levels_stay_chained`: what all calls keep, and what each of them does.
-/

namespace TapeLang

namespace IndentStack

/-- What can be asked of a stack of levels. -/
inductive Operation where
  | push (indent : Indent)
  | pop
  | dedentTo (indent : Indent)
  | isDeeper (indent : Indent)
  deriving DecidableEq, Repr

/-- What a stack answers. -/
inductive Reply where
  | done
  | level (level : Indent)
  | closed (count : Nat)
  | deeper (answer : Bool)
  deriving DecidableEq, Repr

/-- The answer to a call and the stack after it, unless the call is refused. -/
def attempt (s : IndentStack) : Operation → Except IndentError (Reply × IndentStack)
  | .push indent => s.push indent >>= fun s' => .ok (.done, s')
  | .pop => s.pop >>= fun r => .ok (.level r.1, r.2)
  | .dedentTo indent => s.dedentTo indent >>= fun r => .ok (.closed r.1, r.2)
  | .isDeeper indent => .ok (.deeper (s.isDeeper indent), s)

/-- The answer to a call, and the stack with which the caller goes on. -/
def perform (s : IndentStack) (o : Operation) : Except IndentError Reply × IndentStack :=
  match s.attempt o with
  | .ok (reply, s') => (.ok reply, s')
  | .error e => (.error e, s)

/-- The stack after some calls. -/
def performAll (s : IndentStack) (operations : List Operation) : IndentStack :=
  operations.foldl (fun s o => (s.perform o).2) s

variable {s s' : IndentStack} {indent : Indent}

/-! ### Opening and closing -/

theorem push_eq_ok_iff : s.push indent = .ok s' ↔
    (s.top <+: indent ∧ s.top ≠ indent) ∧ s' = { s with inner := indent :: s.inner } := by
  rw [← isDeeper_iff, push]
  split
  · next h => simp [h, eq_comm]
  · next h => simp [h]

/-- The innermost levels, as many as are closed, and those that are left. -/
theorem levels_split {outer closed : List Indent} {level : Indent}
    (h : s.levels = outer ++ level :: closed) :
    closed.length ≤ s.inner.length ∧
      levels { s with inner := s.inner.drop closed.length } = outer ++ [level] ∧
      (s.inner.take closed.length).reverse = closed := by
  have hlength := congrArg List.length h
  simp only [levels, List.length_cons, List.length_reverse, List.length_append] at hlength
  have hsplit : levels { s with inner := s.inner.drop closed.length } ++
      (s.inner.take closed.length).reverse = (outer ++ [level]) ++ closed := by
    rw [List.append_assoc, List.singleton_append, ← h, levels, levels, List.cons_append,
      ← List.reverse_append, List.take_append_drop]
  refine ⟨by omega, List.append_inj' hsplit ?_⟩
  rw [List.length_reverse, List.length_take]
  omega

/-- **Blocks are closed up to a level that is open.** A level stands in one place of the chain only, so the
search from the inside finds it there. -/
theorem IsChained.dedentTo_eq (hs : s.IsChained) {outer closed : List Indent}
    (h : s.levels = outer ++ indent :: closed) :
    s.dedentTo indent = .ok (closed.length, { s with inner := s.inner.drop closed.length }) := by
  obtain ⟨hle, hleft, hclosed⟩ := levels_split h
  have hinside : ∀ level ∈ s.inner.take closed.length, level ≠ indent := by
    have hpairwise := hs.pairwise
    rw [h, List.pairwise_append, List.pairwise_cons] at hpairwise
    intro level hlevel
    rw [← List.mem_reverse, hclosed] at hlevel
    exact (hpairwise.2.1.1 level hlevel).2.symm
  have htop : (s.inner.drop closed.length).headD s.base = indent := by
    have hlast := getLast?_levels { s with inner := s.inner.drop closed.length }
    rw [hleft, List.getLast?_concat] at hlast
    exact (Option.some.inj hlast).symm
  have hclose := closeTo_append hinside htop
  rw [List.take_append_drop, List.length_take, Nat.min_eq_left hle] at hclose
  rw [dedentTo, hclose]

/-- Whatever is closed, the innermost levels are taken away, down to a level that was open. -/
theorem dedentTo_eq_ok {count : Nat} (h : s.dedentTo indent = .ok (count, s')) :
    s' = { s with inner := s.inner.drop count } ∧ indent ∈ s.levels := by
  unfold dedentTo at h
  split at h
  · next closed inner hclose =>
    cases h
    obtain ⟨-, rfl, htop⟩ := closeTo_eq_some hclose
    have hlast := getLast?_levels { s with inner := s.inner.drop count }
    rw [top, htop] at hlast
    exact ⟨rfl, (s.levels_closed_prefix count).mem (List.mem_of_getLast? hlast)⟩
  · cases h

theorem pop_eq_ok_iff {level : Indent} :
    s.pop = .ok (level, s') ↔
      s' = { s with inner := s.inner.drop 1 } ∧ s.inner ≠ [] ∧ s.levels = s'.levels ++ [level] := by
  obtain ⟨base, inner⟩ := s
  cases inner with
  | nil => simp [pop]
  | cons innermost inner =>
    simp only [pop, Except.ok.injEq, Prod.mk.injEq, List.drop_succ_cons, List.drop_zero, ne_eq,
      reduceCtorEq, not_false_eq_true, true_and]
    constructor
    · rintro ⟨rfl, rfl⟩
      simp [levels]
    · rintro ⟨rfl, hlevels⟩
      simpa [levels] using hlevels

/-! ### Any calls -/

theorem perform_of_ok {o : Operation} {reply : Reply} (h : s.attempt o = .ok (reply, s')) :
    s.perform o = (.ok reply, s') := by
  rw [perform, h]

theorem perform_of_error {o : Operation} {e : IndentError} (h : s.attempt o = .error e) :
    s.perform o = (.error e, s) := by
  rw [perform, h]

theorem attempt_of_reply {o : Operation} {reply : Reply} (h : (s.perform o).1 = .ok reply) :
    ∃ s', s.attempt o = .ok (reply, s') := by
  cases hattempt : s.attempt o with
  | error e =>
    rw [perform_of_error hattempt] at h
    cases h
  | ok r =>
    rw [perform_of_ok hattempt] at h
    cases h
    exact ⟨_, rfl⟩

theorem perform_push (h : s.top <+: indent ∧ s.top ≠ indent) :
    s.perform (.push indent) = (.ok .done, { s with inner := indent :: s.inner }) :=
  perform_of_ok (bind_eq_ok.2 ⟨_, push_eq_ok_iff.2 ⟨h, rfl⟩, rfl⟩)

theorem push_accepted_iff :
    (∃ reply, (s.perform (.push indent)).1 = .ok reply) ↔ s.top <+: indent ∧ s.top ≠ indent := by
  constructor
  · rintro ⟨reply, h⟩
    obtain ⟨s', hattempt⟩ := attempt_of_reply h
    obtain ⟨s₁, hpush, -⟩ := bind_eq_ok.1 hattempt
    exact (push_eq_ok_iff.1 hpush).1
  · exact fun h => ⟨_, by rw [perform_push h]⟩

theorem IsChained.perform_dedentTo (hs : s.IsChained) {outer closed : List Indent}
    (h : s.levels = outer ++ indent :: closed) :
    s.perform (.dedentTo indent) =
      (.ok (.closed closed.length), { s with inner := s.inner.drop closed.length }) :=
  perform_of_ok (bind_eq_ok.2 ⟨_, hs.dedentTo_eq h, rfl⟩)

theorem IsChained.dedentTo_accepted_iff (hs : s.IsChained) :
    (∃ reply, (s.perform (.dedentTo indent)).1 = .ok reply) ↔ indent ∈ s.levels := by
  constructor
  · rintro ⟨reply, h⟩
    obtain ⟨s', hattempt⟩ := attempt_of_reply h
    obtain ⟨⟨count, s₁⟩, hdedent, -⟩ := bind_eq_ok.1 hattempt
    exact (dedentTo_eq_ok hdedent).2
  · intro hmem
    obtain ⟨outer, closed, hlevels⟩ := List.append_of_mem hmem
    exact ⟨_, by rw [hs.perform_dedentTo hlevels]⟩

theorem perform_pop_iff {outer : List Indent} {level : Indent} :
    (s.perform .pop).1 = .ok (.level level) ∧ (s.perform .pop).2.levels = outer ↔
      s.levels = outer ++ [level] ∧ outer ≠ [] := by
  constructor
  · rintro ⟨h, rfl⟩
    obtain ⟨s', hattempt⟩ := attempt_of_reply h
    obtain ⟨⟨popped, s₁⟩, hpop, heq⟩ := bind_eq_ok.1 hattempt
    cases heq
    rw [perform_of_ok hattempt]
    exact ⟨(pop_eq_ok_iff.1 hpop).2.2, List.cons_ne_nil _ _⟩
  · rintro ⟨hlevels, hne⟩
    have hsplit : s.levels = outer.dropLast ++ outer.getLast hne :: [level] := by
      rw [hlevels, List.append_cons outer.dropLast, List.dropLast_append_getLast hne]
    obtain ⟨hle, hleft, -⟩ := levels_split hsplit
    rw [List.dropLast_append_getLast hne] at hleft
    have hpop : s.pop = .ok (level, { s with inner := s.inner.drop 1 }) :=
      pop_eq_ok_iff.2 ⟨rfl, List.ne_nil_of_length_pos hle, by rw [hlevels, ← hleft]; rfl⟩
    have hattempt : s.attempt .pop = .ok (.level level, { s with inner := s.inner.drop 1 }) :=
      bind_eq_ok.2 ⟨_, hpop, rfl⟩
    rw [perform_of_ok hattempt]
    exact ⟨rfl, hleft⟩

/-- A call that is refused leaves the stack as it was. -/
theorem snd_perform_of_error {o : Operation} {e : IndentError} (h : (s.perform o).1 = .error e) :
    (s.perform o).2 = s := by
  cases hattempt : s.attempt o with
  | error e' => rw [perform_of_error hattempt]
  | ok r =>
    rw [perform_of_ok hattempt] at h
    cases h

/-- **No call breaks the chain or moves its base.** -/
theorem IsChained.attempt (hs : s.IsChained) {o : Operation} {reply : Reply}
    (h : s.attempt o = .ok (reply, s')) : s'.IsChained ∧ s'.base = s.base := by
  cases o with
  | push indent =>
    obtain ⟨s₁, hpush, heq⟩ := bind_eq_ok.1 h
    cases heq
    obtain ⟨hdeeper, rfl⟩ := push_eq_ok_iff.1 hpush
    exact ⟨hs.opened (isDeeper_iff.2 hdeeper), rfl⟩
  | pop =>
    obtain ⟨⟨level, s₁⟩, hpop, heq⟩ := bind_eq_ok.1 h
    cases heq
    obtain ⟨rfl, -⟩ := pop_eq_ok_iff.1 hpop
    exact ⟨hs.closed 1, rfl⟩
  | dedentTo indent =>
    obtain ⟨⟨count, s₁⟩, hdedent, heq⟩ := bind_eq_ok.1 h
    cases heq
    obtain ⟨rfl, -⟩ := dedentTo_eq_ok hdedent
    exact ⟨hs.closed count, rfl⟩
  | isDeeper indent =>
    cases h
    exact ⟨hs, rfl⟩

theorem IsChained.perform (hs : s.IsChained) (o : Operation) :
    (s.perform o).2.IsChained ∧ (s.perform o).2.base = s.base := by
  cases hattempt : s.attempt o with
  | error e =>
    rw [perform_of_error hattempt]
    exact ⟨hs, rfl⟩
  | ok r =>
    rw [perform_of_ok hattempt]
    exact hs.attempt hattempt

theorem IsChained.performAll (hs : s.IsChained) (operations : List Operation) :
    (s.performAll operations).IsChained ∧ (s.performAll operations).base = s.base := by
  induction operations generalizing s with
  | nil => exact ⟨hs, rfl⟩
  | cons o operations ih =>
    obtain ⟨hchained, hbase⟩ := hs.perform o
    obtain ⟨hchained', hbase'⟩ := ih hchained
    exact ⟨hchained', hbase'.trans hbase⟩

end IndentStack

open IndentStack in
/-- **The levels of the open blocks stay a chain of prefixes.** Whatever is asked of a stack of levels, calls
that are refused included, the outermost level is its base and each level is a proper prefix of the next, so
that all are different. A block is opened exactly if its level properly extends the innermost one. Blocks are
closed to a level exactly if it is open; then the levels up to it are left, and the answer is the number of
the others. The innermost block is closed unless only the base is left. A call that is refused leaves the
stack as it was. -/
theorem indent_levels_stay_chained (base : Indent) (operations : List Operation) :
    let s := performAll { base := base } operations
    (s.levels.head? = some base ∧ s.levels.getLast? = some s.top ∧ s.levels.Nodup ∧
      s.levels.IsChain fun outer inner => outer <+: inner ∧ outer ≠ inner) ∧
    (∀ indent, s.perform (.isDeeper indent) =
      (.ok (.deeper (decide (s.top <+: indent ∧ s.top ≠ indent))), s)) ∧
    (∀ indent, ((∃ reply, (s.perform (.push indent)).1 = .ok reply) ↔ s.top <+: indent ∧ s.top ≠ indent) ∧
      (s.top <+: indent ∧ s.top ≠ indent → (s.perform (.push indent)).2.levels = s.levels ++ [indent])) ∧
    (∀ indent, (∃ reply, (s.perform (.dedentTo indent)).1 = .ok reply) ↔ indent ∈ s.levels) ∧
    (∀ outer indent closed, s.levels = outer ++ indent :: closed →
      (s.perform (.dedentTo indent)).1 = .ok (.closed closed.length) ∧
        (s.perform (.dedentTo indent)).2.levels = outer ++ [indent]) ∧
    (∀ outer level, (s.perform .pop).1 = .ok (.level level) ∧ (s.perform .pop).2.levels = outer ↔
      s.levels = outer ++ [level] ∧ outer ≠ []) ∧
    ∀ o e, (s.perform o).1 = .error e → (s.perform o).2 = s := by
  intro s
  have hstart : IsChained { base := base } := List.isChain_singleton _
  obtain ⟨hs, hbase⟩ : s.IsChained ∧ s.base = base := hstart.performAll operations
  have hdeeper : ∀ indent, s.isDeeper indent = decide (s.top <+: indent ∧ s.top ≠ indent) := by
    intro indent
    rw [Bool.eq_iff_iff, isDeeper_iff, decide_eq_true_iff]
  refine ⟨⟨?_, s.getLast?_levels, hs.pairwise.imp And.right, hs⟩, fun indent => ?_,
    fun indent => ⟨push_accepted_iff, fun h => ?_⟩, fun indent => hs.dedentTo_accepted_iff,
    fun outer indent closed h => ?_, fun outer level => perform_pop_iff, fun o e => snd_perform_of_error⟩
  · rw [levels, hbase]
    rfl
  · rw [← hdeeper]
    rfl
  · rw [perform_push h, levels_opened]
  · rw [hs.perform_dedentTo h]
    exact ⟨rfl, (levels_split h).2.1⟩

open IndentStack in
/-- Levels of spaces and tabs, with two calls that are refused: the second level does not extend the first,
and the last is not open. -/
theorem indent_levels_stay_chained_mixed :
    let s := performAll {} [.push "  ".toList, .push " \t".toList, .push "  \t".toList, .pop,
      .push "  \t ".toList, .dedentTo "  \t".toList]
    s.levels = [[], "  ".toList, "  \t ".toList] ∧
      (s.perform (.dedentTo "  ".toList)).1 = .ok (.closed 1) ∧
      (s.perform (.dedentTo "  ".toList)).2.levels = [[], "  ".toList] := by
  intro s
  have hlevels : s.levels = [[]] ++ "  ".toList :: ["  \t ".toList] := by rfl
  obtain ⟨-, -, -, -, hdedent, -⟩ := indent_levels_stay_chained [] [.push "  ".toList, .push " \t".toList,
    .push "  \t".toList, .pop, .push "  \t ".toList, .dedentTo "  \t".toList]
  exact ⟨hlevels, hdedent _ _ _ hlevels⟩

end TapeLang
