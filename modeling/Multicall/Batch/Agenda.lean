import Multicall.Failure.Cause
import Multicall.Json.Basic
/-!
The order of a batch. Entries take their turns as they stand in the envelope; when a limit is
reached and entries are left, the next turn is the fault, and it is the last.
-/
namespace Multicall

structure Agenda where
  limit : Option Nat
  total : Nat
  processed : Nat
  pending : Members
  halted : Bool

inductive Turn
  | entry (id : String) (body : Json)
  | fault (fault : BatchFault)

namespace Agenda

def start (limit : Option Nat) (entries : Members) : Agenda :=
  ⟨limit, entries.length, 0, entries, false⟩

/-- Entries that are still to come. -/
def remaining (a : Agenda) : Nat := if a.halted then 0 else a.pending.length

def limitReached (a : Agenda) : Bool := a.limit.any (· ≤ a.processed)

def next (a : Agenda) : Option (Turn × Agenda) :=
  if a.halted then none
  else
    match a.pending with
    | [] => none
    | (id, body) :: rest =>
        if a.limitReached then
          some (.fault (.tooManyEntries a.total (a.limit.getD 0)), { a with halted := true })
        else
          some (.entry id body, { a with processed := a.processed + 1, pending := rest })

theorem pending_next {a b : Agenda} {id : String} {body : Json}
    (h : a.next = some (.entry id body, b)) : a.pending = (id, body) :: b.pending := by
  unfold next at h
  split at h
  · simp at h
  · split at h
    · simp at h
    · split at h
      · simp at h
      · simp only [Option.some.injEq, Prod.mk.injEq, Turn.entry.injEq] at h
        obtain ⟨⟨rfl, rfl⟩, rfl⟩ := h
        assumption

/-- The entries that take a turn before the limit is reached. -/
def admitted (a : Agenda) : Members :=
  match a.limit with
  | none => a.pending
  | some limit => a.pending.take (limit - a.processed)

/-- The fault that the turns end in, if entries are left when the limit is reached. -/
def fault? (a : Agenda) : Option BatchFault :=
  match a.limit with
  | none => none
  | some limit =>
      if limit - a.processed < a.pending.length then some (.tooManyEntries a.total limit) else none

section Turns

variable {a : Agenda}

theorem next_of_spent (running : a.halted = false) (spent : a.pending = []) :
    a.next = none ∧ a.admitted = [] ∧ a.fault? = none := by
  obtain ⟨limit, total, processed, pending, halted⟩ := a
  cases running
  cases spent
  cases limit <;> simp [next, admitted, fault?]

theorem next_of_full {id : String} {body : Json} {rest : Members} (running : a.halted = false)
    (pending : a.pending = (id, body) :: rest) (full : a.limitReached = true) :
    ∃ f after, a.next = some (.fault f, after) ∧ a.admitted = [] ∧ a.fault? = some f := by
  obtain ⟨limit, total, processed, entries, halted⟩ := a
  cases running
  cases pending
  cases limit with
  | none => cases full
  | some limit =>
    have none_left : limit - processed = 0 :=
      Nat.sub_eq_zero_of_le (by simpa [limitReached] using full)
    refine ⟨.tooManyEntries total limit, ⟨some limit, total, processed, (id, body) :: rest, true⟩,
      ?_, ?_, ?_⟩
    · simp [next, full]
    · simp [admitted, none_left]
    · simp [fault?, none_left]

theorem next_of_room {id : String} {body : Json} {rest : Members} (running : a.halted = false)
    (pending : a.pending = (id, body) :: rest) (room : a.limitReached = false) :
    ∃ after, a.next = some (.entry id body, after) ∧ after.halted = false ∧ after.pending = rest ∧
      a.admitted = (id, body) :: after.admitted ∧ a.fault? = after.fault? := by
  obtain ⟨limit, total, processed, entries, halted⟩ := a
  cases running
  cases pending
  refine ⟨⟨limit, total, processed + 1, rest, false⟩, by simp [next, room], rfl, rfl, ?_⟩
  cases limit with
  | none => exact ⟨rfl, rfl⟩
  | some limit =>
    have below : processed < limit := by simpa [limitReached] using room
    have one : limit - processed = limit - (processed + 1) + 1 := by omega
    refine ⟨?_, ?_⟩
    · simp only [admitted]
      rw [one, List.take_succ_cons]
    · simp only [fault?]
      rw [one, List.length_cons]
      simp only [Nat.add_lt_add_iff_right]

/-- The first entry that is admitted has the next turn. -/
theorem next_of_admitted {id : String} {body : Json} {rest : Members} (running : a.halted = false)
    (admitted : a.admitted = (id, body) :: rest) :
    ∃ after, a.next = some (.entry id body, after) ∧ after.halted = false ∧
      after.admitted = rest := by
  cases pending : a.pending with
  | nil => exact nomatch admitted.symm.trans (next_of_spent running pending).2.1
  | cons entry others =>
    cases full : a.limitReached with
    | true =>
      obtain ⟨_, _, -, none_admitted, -⟩ := next_of_full running pending full
      exact nomatch admitted.symm.trans none_admitted
    | false =>
      obtain ⟨after, turn, still, -, first, -⟩ := next_of_room running pending full
      cases admitted.symm.trans first
      exact ⟨after, turn, still, rfl⟩

/-- An entry that has the next turn is the first that is admitted. -/
theorem admitted_of_next {after : Agenda} {id : String} {body : Json} (running : a.halted = false)
    (turn : a.next = some (.entry id body, after)) :
    a.admitted = (id, body) :: after.admitted ∧ after.halted = false := by
  have pending := pending_next turn
  cases full : a.limitReached with
  | true =>
    obtain ⟨_, _, faults, -⟩ := next_of_full running pending full
    exact nomatch turn.symm.trans faults
  | false =>
    obtain ⟨next, same, still, -, first, -⟩ := next_of_room running pending full
    cases turn.symm.trans same
    exact ⟨first, still⟩

/-- Where no entry has the next turn none is admitted. -/
theorem admitted_of_no_entry (running : a.halted = false)
    (turn : ∀ id body after, a.next ≠ some (.entry id body, after)) : a.admitted = [] := by
  cases admitted : a.admitted with
  | nil => rfl
  | cons entry rest =>
    obtain ⟨after, next, -⟩ := next_of_admitted running admitted
    exact absurd next (turn _ _ after)

end Turns

theorem start_within {limit : Option Nat} {entries : Members}
    (short : ∀ l, limit = some l → entries.length ≤ l) :
    (start limit entries).admitted = entries ∧ (start limit entries).fault? = none := by
  cases limit with
  | none => exact ⟨rfl, rfl⟩
  | some l =>
    have enough := short l rfl
    refine ⟨List.take_of_length_le (by simpa [start] using enough), if_neg ?_⟩
    simpa [start] using enough

theorem start_beyond {limit : Nat} {entries : Members} (beyond : limit < entries.length) :
    (start (some limit) entries).admitted = entries.take limit ∧
      (start (some limit) entries).fault? = some (.tooManyEntries entries.length limit) :=
  ⟨rfl, if_pos beyond⟩

end Agenda
end Multicall
