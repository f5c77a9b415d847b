/-
  WorkforceRisk.Lib.Retry — a loop that asks again until an answer will do.

  The answers come off a tape. Attempt `i` is made as long as `more i`; what its answer
  leads to, in the state the attempts before it left, is `react`: an end, or a next attempt
  in another state. A tape that runs out leaves the loop waiting.

  Proved: which tapes end a loop with what (`retry_done_iff`), and which exhaust it
  (`retry_exhausted_iff`).
-/

namespace WorkforceRisk.Lib

variable {σ α β : Type}

/-- What an answer leads to. -/
inductive Next (σ β : Type) where
  | done (b : β)
  | again (s : σ)

/-- How a loop ends, and what it leaves of the tape. -/
inductive Ended (σ α β : Type) where
  | done (b : β) (rest : List α)
  | exhausted (s : σ) (rest : List α)
  | waiting (s : σ)

/-- What is left of the tape. -/
def Ended.rest : Ended σ α β → List α
  | .done _ rest => rest
  | .exhausted _ rest => rest
  | .waiting _ => []

variable (more : Nat → Bool) (react : Nat → σ → α → Next σ β)

def retry : Nat → σ → List α → Ended σ α β
  | i, s, [] => if more i then .waiting s else .exhausted s []
  | i, s, a :: rest =>
    if more i then match react i s a with
      | .done b => .done b rest
      | .again s' => retry (i + 1) s' rest
    else .exhausted s (a :: rest)

/-- The answers that attempts from `i` on got, each leading to another attempt. -/
inductive Refused : Nat → σ → List α → Nat → σ → Prop where
  | none (i : Nat) (s : σ) : Refused i s [] i s
  | cons {i j : Nat} {s s' s'' : σ} {a : α} {l : List α} (hmore : more i = true) (hagain : react i s a = .again s')
      (rest : Refused (i + 1) s' l j s'') : Refused i s (a :: l) j s''

/-- The answers a loop takes off the tape. -/
def taken : Nat → σ → List α → List α
  | _, _, [] => []
  | i, s, a :: rest =>
    if more i then match react i s a with
      | .done _ => [a]
      | .again s' => a :: taken (i + 1) s' rest
    else []

variable {more react} {i j : Nat} {s s' : σ} {tape rest first : List α} {b : β}

/-- After refused answers the loop goes on. -/
theorem retry_refused (h : Refused more react i s first j s') :
    retry more react i s (first ++ rest) = retry more react j s' rest := by
  induction h with
  | none i s => rfl
  | cons hmore hagain _ ih =>
    rw [List.cons_append, retry, if_pos hmore, hagain]
    exact ih

theorem retry_done_iff : retry more react i s tape = .done b rest ↔
    ∃ first a j s', tape = first ++ a :: rest ∧ Refused more react i s first j s' ∧ more j = true ∧
      react j s' a = .done b := by
  constructor
  · intro h
    induction tape generalizing i s with
    | nil =>
      unfold retry at h
      split at h
      · cases h
      · cases h
    | cons a tape ih =>
      unfold retry at h
      split at h
      · rename_i hmore
        split at h
        · rename_i hdone
          cases h
          exact ⟨[], a, i, s, rfl, .none i s, hmore, hdone⟩
        · rename_i hagain
          obtain ⟨first, a', j, s', htape, hrefused, hend⟩ := ih h
          exact ⟨a :: first, a', j, s', congrArg (a :: ·) htape, .cons hmore hagain hrefused, hend⟩
      · cases h
  · intro h
    obtain ⟨first, a, j, s', rfl, hrefused, hmore, hdone⟩ := h
    rw [retry_refused hrefused, retry, if_pos hmore, hdone]

theorem retry_exhausted_iff : retry more react i s tape = .exhausted s' rest ↔
    ∃ first j, tape = first ++ rest ∧ Refused more react i s first j s' ∧ more j = false := by
  constructor
  · intro h
    induction tape generalizing i s with
    | nil =>
      unfold retry at h
      split at h
      · cases h
      · rename_i hmore
        cases h
        exact ⟨[], i, rfl, .none i _, by simpa using hmore⟩
    | cons a tape ih =>
      unfold retry at h
      split at h
      · rename_i hmore
        split at h
        · cases h
        · rename_i hagain
          obtain ⟨first, j, htape, hrefused, hend⟩ := ih h
          exact ⟨a :: first, j, congrArg (a :: ·) htape, .cons hmore hagain hrefused, hend⟩
      · rename_i hmore
        cases h
        exact ⟨[], i, rfl, .none i _, by simpa using hmore⟩
  · intro h
    obtain ⟨first, j, rfl, hrefused, hmore⟩ := h
    rw [retry_refused hrefused]
    cases rest with
    | nil => rw [retry, if_neg (by simp [hmore])]
    | cons a rest => rw [retry, if_neg (by simp [hmore])]

/-- After refused answers the loop takes what it takes then. -/
theorem taken_refused (h : Refused more react i s first j s') :
    taken more react i s (first ++ rest) = first ++ taken more react j s' rest := by
  induction h with
  | none i s => rfl
  | cons hmore hagain _ ih =>
    rw [List.cons_append, taken, if_pos hmore, hagain]
    exact congrArg (_ :: ·) ih

/-- A loop takes the answers it does not leave on the tape. -/
theorem taken_rest (more : Nat → Bool) (react : Nat → σ → α → Next σ β) (tape : List α) : ∀ (i : Nat) (s : σ),
    taken more react i s tape ++ (retry more react i s tape).rest = tape := by
  induction tape with
  | nil =>
    intro i s
    unfold taken retry
    split <;> rfl
  | cons a tape ih =>
    intro i s
    unfold taken retry
    split
    · split
      · rfl
      · exact congrArg (a :: ·) (ih _ _)
    · rfl

/-- A loop that ends takes the answers it refuses and the one that ends it. -/
theorem taken_of_done (h : retry more react i s tape = .done b rest) : ∃ first a j s',
    taken more react i s tape = first ++ [a] ∧ Refused more react i s first j s' ∧ more j = true ∧
      react j s' a = .done b := by
  obtain ⟨first, a, j, s', rfl, hrefused, hmore, hdone⟩ := retry_done_iff.mp h
  refine ⟨first, a, j, s', ?_, hrefused, hmore, hdone⟩
  rw [taken_refused hrefused, taken, if_pos hmore, hdone]

/-- One that is exhausted takes the answers it refuses. -/
theorem taken_of_exhausted (h : retry more react i s tape = .exhausted s' rest) :
    ∃ j, Refused more react i s (taken more react i s tape) j s' ∧ more j = false := by
  obtain ⟨first, j, rfl, hrefused, hmore⟩ := retry_exhausted_iff.mp h
  have htaken : taken more react j s' rest = [] := by
    cases rest with
    | nil => rfl
    | cons a rest => rw [taken, if_neg (by simp [hmore])]
  rw [taken_refused hrefused, htaken, List.append_nil]
  exact ⟨j, hrefused, hmore⟩

/-- One that waits has refused what it took. -/
theorem taken_of_waiting (h : retry more react i s tape = .waiting s') :
    ∃ j, Refused more react i s (taken more react i s tape) j s' := by
  induction tape generalizing i s with
  | nil =>
    unfold retry at h
    split at h
    · cases h
      exact ⟨i, .none i _⟩
    · cases h
  | cons a tape ih =>
    unfold retry at h
    unfold taken
    split at h
    · rename_i hmore
      rw [if_pos hmore]
      split at h
      · cases h
      · rename_i hagain
        obtain ⟨j, hrefused⟩ := ih h
        exact ⟨j, .cons hmore hagain hrefused⟩
    · cases h

/-- An answer is taken after those before it are refused, if another attempt is left. -/
theorem mem_taken_iff {a : α} : first ++ [a] <+: taken more react i s (first ++ a :: rest) ↔
    ∃ j s', Refused more react i s first j s' ∧ more j = true := by
  constructor
  · intro h
    induction first generalizing i s with
    | nil =>
      refine ⟨i, s, .none i s, ?_⟩
      rw [List.nil_append, List.nil_append, taken] at h
      split at h
      · assumption
      · exact absurd (List.prefix_nil.mp h) (by simp)
    | cons b first ih =>
      rw [List.cons_append, List.cons_append, taken] at h
      split at h
      · rename_i hmore
        split at h
        · obtain ⟨-, h⟩ := List.cons_prefix_cons.mp h
          exact absurd (List.prefix_nil.mp h) (by simp)
        · rename_i hagain
          obtain ⟨j, s', hrefused, hj⟩ := ih (List.cons_prefix_cons.mp h).2
          exact ⟨j, s', .cons hmore hagain hrefused, hj⟩
      · exact absurd (List.prefix_nil.mp h) (by simp)
  · intro h
    obtain ⟨j, s', hrefused, hmore⟩ := h
    rw [taken_refused hrefused, taken, if_pos hmore]
    split
    · exact List.prefix_rfl
    · exact List.prefix_append_right_inj first |>.mpr (List.cons_prefix_cons.mpr ⟨rfl, List.nil_prefix⟩)

/-- As many attempts are made as answers are refused. -/
theorem Refused.count (h : Refused more react i s first j s') : j = i + first.length := by
  induction h with
  | none i s => rfl
  | cons _ _ _ ih => rw [ih, List.length_cons]; omega

/-- Each of them was asked for. -/
theorem Refused.made (h : Refused more react i s first j s') {k : Nat} (hi : i ≤ k) (hk : k < j) : more k = true := by
  induction h with
  | none i s => omega
  | @cons m _ _ _ _ _ _ hmore _ _ ih =>
    by_cases heq : k = m
    · rw [heq]
      exact hmore
    · exact ih (by omega) hk

/-- Where the state has no say in it, the answers that are refused are told one by one. -/
theorem exists_refused_iff {Refuses : Nat → α → Prop}
    (h : ∀ i s a, (∃ s', react i s a = .again s') ↔ Refuses i a) : ∀ {i : Nat} {s : σ},
    (∃ j s', Refused more react i s first j s') ↔
      ∀ before a after, first = before ++ a :: after →
        more (i + before.length) = true ∧ Refuses (i + before.length) a := by
  induction first with
  | nil => exact fun {i s} => ⟨fun _ before a after hnil => absurd hnil (by simp), fun _ => ⟨i, s, .none i s⟩⟩
  | cons a l ih =>
    intro i s
    constructor
    · intro h'
      obtain ⟨j, s', hrefused⟩ := h'
      cases hrefused with
      | cons hmore hagain rest =>
        intro before b after hsplit
        cases before with
        | nil =>
          cases hsplit
          exact ⟨hmore, (h i s a).mp ⟨_, hagain⟩⟩
        | cons c before =>
          cases hsplit
          have hrest := ih.mp ⟨_, _, rest⟩ before b after rfl
          rw [List.length_cons, show i + (before.length + 1) = i + 1 + before.length by omega]
          exact hrest
    · intro hall
      obtain ⟨hmore, hrefuses⟩ := hall [] a l rfl
      obtain ⟨s', hagain⟩ := (h i s a).mpr hrefuses
      obtain ⟨j, s'', rest⟩ := (ih (i := i + 1) (s := s')).mpr fun before b after hsplit => by
        have hrest := hall (a :: before) b after (by rw [hsplit]; rfl)
        rw [List.length_cons, show i + (before.length + 1) = i + 1 + before.length by omega] at hrest
        exact hrest
      exact ⟨j, s'', .cons hmore hagain rest⟩

end WorkforceRisk.Lib
