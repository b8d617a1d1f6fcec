/-!
# Computations that succeed

Readers, decoders and statements are computations that may fail, made of smaller ones. One
that succeeds has come through each of its parts, so a success is taken apart here once, by
the way its parts are put together, and every reader is opened by these lemmas.
-/

namespace SchemaLoom

variable {ε α β γ : Type}

/-- Two computations in a row succeed only if the first does, and the second behind it. -/
theorem exists_of_bind_eq_ok {first : Except ε α} {next : α -> Except ε β} {result : β}
    (found : (first >>= next) = .ok result) :
    ∃ value, first = .ok value ∧ next value = .ok result := by
  cases first with
  | error error => cases found
  | ok value => exact ⟨value, rfl, found⟩

/-- A computation succeeds with a changed result only if it succeeds with one that is
changed to it. -/
theorem exists_of_map_eq_ok {first : Except ε α} {change : α -> β} {result : β}
    (found : first.map change = .ok result) :
    ∃ value, first = .ok value ∧ change value = result := by
  cases first with
  | error error => cases found
  | ok value => exact ⟨value, rfl, Except.ok.inj found⟩

/-- A computation of which a result is kept succeeds with it. -/
theorem eq_ok_of_toOption {found : Except ε α} {result : α} (kept : found.toOption = some result) :
    found = .ok result := by
  cases found with
  | error error => cases kept
  | ok value => exact congrArg Except.ok (Option.some.inj kept)

/-- What is read behind two steps that are taken on a condition. The reading of what follows
stands in both branches. -/
theorem exists_of_conditional_bind {condition : Prop} [Decidable condition]
    {first : Except ε α} {second : α -> Except ε β} {other : Except ε β} {next : β -> Except ε γ}
    {result : γ}
    (read : (if condition then first >>= fun value => second value >>= next else other >>= next) =
      .ok result) :
    ∃ value, (if condition then first >>= second else other) = .ok value ∧
      next value = .ok result := by
  split at read
  · rename_i isTrue
    obtain ⟨middle, isFirst, read⟩ := exists_of_bind_eq_ok read
    obtain ⟨value, isSecond, read⟩ := exists_of_bind_eq_ok read
    rw [if_pos isTrue, isFirst]
    exact ⟨value, isSecond, read⟩
  · rename_i isFalse
    rw [if_neg isFalse]
    exact exists_of_bind_eq_ok read

/-- Where each item of a list is read, so is the list. -/
theorem mapM_map_of_forall {items : List α} {name : α -> γ} {read : γ -> Except ε β}
    {result : α -> β} (each : ∀ item ∈ items, read (name item) = .ok (result item)) :
    (items.map name).mapM read = .ok (items.map result) := by
  induction items with
  | nil => rfl
  | cons item items inductionHypothesis =>
      obtain ⟨here, others⟩ := List.forall_mem_cons.1 each
      rw [List.map_cons, List.mapM_cons, here, inductionHypothesis others]
      rfl

end SchemaLoom
