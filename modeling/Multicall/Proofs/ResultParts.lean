import Multicall.Proofs.WriterOrder
import Multicall.Response.Encoder
/-!
The parts that carry results. Whatever an entry comes to, one part is written for it, and its body
is the compact text of one document keyed by the id. A sequence is no exception: what is streamed
element by element is the text of the array of those elements that have a JSON form, up to the end
or the panic of the producer. Nothing flows back to the code of a module while its sequence is
written, so what the pulls come to can be told beforehand, and the part is written from that.
-/
namespace Multicall

/-- A sequence pulled once: what its code records and sends, and what it gives. -/
structure Pull where
  events : List Event
  commands : List PartCommand
  came : Except Panic (Option (Except String Json))

/-- Whether a sequence is over with this pull. -/
def Pull.isLast (p : Pull) : Bool :=
  match p.came with
  | .ok (some _) => false
  | _ => true

/-- What an operation has handed back, with the pulls of a sequence one after the other. -/
inductive Content
  | value (json : Except String Json)
  | sequence (pulls : List Pull)

/-- What an entry has come to. -/
abbrev Answer := Except Failure Content

/-- The elements that a sequence part lists: those with a JSON form, before the end or any panic. -/
def listed : List Pull → List Json
  | [] => []
  | pull :: rest =>
      match pull.came with
      | .ok (some (.ok j)) => j.withoutPrivate :: listed rest
      | .ok (some (.error _)) => listed rest
      | .ok none | .error _ => []

namespace Answer

def body (debug : Bool) : Answer → Json
  | .ok (.value (.ok j)) => Encoder.successBody j.withoutPrivate
  | .ok (.value (.error reason)) => Encoder.failureBody debug (.ofConversion reason)
  | .ok (.sequence pulls) => Encoder.successBody (.array (listed pulls))
  | .error f => Encoder.failureBody debug f

/-- Whether a sequence, if it is one, came to its end. -/
def isFinite : Answer → Bool
  | .ok (.sequence pulls) => pulls.any Pull.isLast
  | _ => true

/-- How an entry is counted. -/
def emitted : Answer → Emitted
  | .ok (.value (.error _)) => .failure
  | .ok _ => .success
  | .error _ => .failure

/-- What the code of a sequence sends while it is pulled. -/
def commands : Answer → List PartCommand
  | .ok (.sequence pulls) => pulls.flatMap (·.commands)
  | _ => []

end Answer

def Sheet.json (body : Octets) : Sheet := ⟨jsonMime, body, none, true⟩

/-- A result part with this text, as far as it has been written. -/
structure Sheet.Begins (text : Octets) (s : Sheet) : Prop where
  mime : s.mime = jsonMime
  owner : s.owner = none
  front : s.body <+: text
  whole : s.closed = true → s.body = text

theorem Sheet.begins_of_open {body text : Octets} (front : body <+: text) :
    Begins text ⟨jsonMime, body, none, false⟩ where
  mime := rfl
  owner := rfl
  front := front
  whole shut := by cases shut

namespace Writer

def logging (e : Event) (w : Writer) : Writer :=
  { w with outlet := { w.outlet with log := w.outlet.log.push e } }

/-- The writer when events have been recorded one after the other. -/
def hearing : List Event → Writer → Writer
  | [], w => w
  | e :: rest, w => hearing rest (w.logging e)

theorem recordAll_apply (events : List Event) (w : Writer) :
    Encoder.recordAll events w = .done () (w.hearing events) := by
  induction events generalizing w with
  | nil => rfl
  | cons e rest ih => exact ih (w.logging e)

end Writer

namespace Encoder

open Multicall.Action

/-- Elements as they are streamed: a comma stands before each of them but the very first. -/
def streamed (written : Nat) : List Json → Octets
  | [] => []
  | j :: rest =>
      (if 0 < written then Octets.ofText "," else []) ++ j.octets ++ streamed (written + 1) rest

theorem commaSeparated_cons (piece : List Char) (rest : List (List Char)) :
    Json.commaSeparated (piece :: rest) = piece ++ rest.flatMap (',' :: ·) := by
  induction rest generalizing piece with
  | nil => simp [Json.commaSeparated]
  | cons next later ih => simp [Json.commaSeparated, ih]

theorem streamed_behind (items : List Json) (written : Nat) (positive : 0 < written) :
    streamed written items = Octets.ofChars (items.flatMap fun j => ',' :: j.chars) := by
  induction items generalizing written with
  | nil => rfl
  | cons j rest ih =>
    have comma : Octets.ofText "," = Octets.ofChars [','] := rfl
    rw [streamed, ih (written + 1) (by omega), if_pos positive, comma, Json.octets,
      ← Octets.ofChars_append, ← Octets.ofChars_append]
    simp

theorem streamed_eq (items : List Json) :
    streamed 0 items = Octets.ofChars (Json.commaSeparated (items.map Json.chars)) := by
  cases items with
  | nil => rfl
  | cons j rest =>
    rw [streamed, streamed_behind rest 1 (by omega), List.map_cons, commaSeparated_cons]
    simp [Json.octets, List.flatMap_map]

/-- Head, streamed elements and end together are the text of one document. -/
theorem sequence_text (id : String) (items : List Json) :
    sequenceHead id ++ streamed 0 items ++ sequenceEnd =
      (keyed id (successBody (.array items))).octets := by
  have error : Json.quote "error" = "\"error\"".toList := by decide +kernel
  have result : Json.quote "result" = "\"result\"".toList := by decide +kernel
  rw [streamed_eq, sequenceHead, sequenceEnd, Octets.ofText, ← Octets.ofChars_append,
    ← Octets.ofChars_append]
  simp [keyed, successBody, Json.octets, Json.chars, Json.memberTexts, Json.commaSeparated,
    Json.itemTexts_eq_map, error, result]

/-- Writes what pulls have come to. The answer is whether they gave out before the sequence ended. -/
def emitPulls (id : String) (handle : Nat) : (index written : Nat) → List Pull → Action Writer Bool
  | index, written, pulls => do
      if ← abandoned id then return false
      match pulls with
      | [] => return true
      | pull :: rest => do
          recordAll pull.events
          match pull.came with
          | .error p => do
              Writer.record (.sequencePanicked id index p)
              return false
          | .ok none => return false
          | .ok (some element) => do
              let written ← emitElement id handle index written element
              emitPulls id handle (index + 1) written rest

/-- Writes the part of an entry from what it has come to. -/
def emitAnswer (debug : Bool) (id : String) : Answer → Action Writer (Emitted × Bool)
  | .ok (.value json) => return (← emitValue debug id json, false)
  | .ok (.sequence pulls) => do
      let handle ← openSequence id
      let cut ← emitPulls id handle 0 0 pulls
      closeSequence handle
      return (.success, cut)
  | .error f => return (← emitFailure debug id f, false)

variable {way : Way} {b : Boundary} {sheets : List Sheet} {w : Writer}

/-- What one event leaves as it was, any number of them does. -/
theorem recordAll_invariant (holds : Writer → Prop)
    (step : ∀ e w, holds w → (Writer.record e).Ends w fun _ after => holds after)
    (events : List Event) (w : Writer) (start : holds w) :
    (recordAll events).Ends w fun _ after => holds after := by
  induction events generalizing w with
  | nil => exact ends_pure _ _ _ start
  | cons e rest ih => exact (step e w start).bind fun _ after kept => ih after kept

theorem recordAll_ends (events : List Event) (floats : w.Floats way b sheets) :
    (recordAll events).Ends w fun _ after => after.Floats way b sheets :=
  recordAll_invariant (·.Floats way b sheets) (fun e _ floats => Writer.record_ends e floats)
    events w floats

/-- A panic has struck while the last part was written, of which this is the whole text. -/
def Cut (way : Way) (b : Boundary) (sheets : List Sheet) (text : Octets) (w : Writer) : Prop :=
  ∃ s : Sheet, s.Begins text ∧ w.Struck way b (sheets ++ [s])

variable {text body : Octets}

theorem open_last_goes (text : Octets) (floats : w.Floats way b sheets) :
    (Writer.openPart jsonMime).Goes w (fun handle after => handle = sheets.length ∧
      after.Floats way b (sheets ++ [⟨jsonMime, [], none, false⟩])) (Cut way b sheets text) :=
  (Writer.openPart_goes jsonMime none floats).weaken (fun _ _ => id)
    fun _ struck => ⟨_, Sheet.begins_of_open List.nil_prefix, struck⟩

theorem write_last_goes (bytes : Octets)
    (floats : w.Floats way b (sheets ++ [⟨jsonMime, body, none, false⟩]))
    (front : body ++ bytes <+: text) :
    (Writer.write sheets.length bytes).Goes w
      (fun _ after => after.Floats way b (sheets ++ [⟨jsonMime, body ++ bytes, none, false⟩]))
      (Cut way b sheets text) := by
  have written := Writer.write_goes sheets.length bytes floats ⟨jsonMime, body, none, false⟩
    (by simp) rfl
  simp only [List.set_append_right _ _ (Nat.le_refl _), Nat.sub_self, List.set_cons_zero,
    Sheet.add] at written
  exact written.weaken (fun _ _ => id) fun _ struck => ⟨_, Sheet.begins_of_open front, struck⟩

theorem close_last_goes (floats : w.Floats way b (sheets ++ [⟨jsonMime, text, none, false⟩])) :
    (Writer.closePart sheets.length).Goes w
      (fun _ after => after.Floats way b (sheets ++ [.json text])) (Cut way b sheets text) := by
  have closed := Writer.closePart_goes sheets.length floats ⟨jsonMime, text, none, false⟩
    (.json text) (by simp) rfl rfl rfl rfl
  simp only [List.set_append_right _ _ (Nat.le_refl _), Nat.sub_self, List.set_cons_zero] at closed
  exact closed.weaken (fun _ _ => id)
    fun _ struck => ⟨_, ⟨rfl, rfl, List.prefix_rfl, fun _ => rfl⟩, struck⟩

theorem writePart_goes (text : Octets) (floats : w.Floats way b sheets) :
    (writePart text).Goes w (fun _ after => after.Floats way b (sheets ++ [.json text]))
      (Cut way b sheets text) := by
  refine (open_last_goes text floats).bind ?_
  rintro _ opened ⟨rfl, floats⟩
  refine (write_last_goes text floats List.prefix_rfl).bind ?_
  intro _ written floats
  exact close_last_goes floats

theorem emitFailure_goes (debug : Bool) (id : String) (f : Failure)
    (floats : w.Floats way b sheets) :
    (emitFailure debug id f).Goes w
      (fun _ after => after.Floats way b (sheets ++ [.json (keyed id (failureBody debug f)).octets]))
      (Cut way b sheets (keyed id (failureBody debug f)).octets) := by
  refine (recordAll_ends _ floats).goes.bind fun _ _ floats => ?_
  exact (writePart_goes _ floats).bind fun _ _ floats => goes_pure _ _ floats

theorem abandoned_ends (id : String) (floats : w.Floats way b sheets) :
    (abandoned id).Ends w fun gone after => gone = false ∧ after = w := by
  apply ends_get_bind
  rw [way.whole _ floats.sound, if_neg Bool.false_ne_true]
  exact ends_pure _ _ _ ⟨rfl, rfl⟩

theorem emitElement_value_goes (id : String) (j : Json) (index written : Nat)
    (floats : w.Floats way b (sheets ++ [⟨jsonMime, body, none, false⟩]))
    (front : body ++ ((if 0 < written then Octets.ofText "," else []) ++ j.withoutPrivate.octets) <+:
      text) :
    (emitElement id sheets.length index written (.ok j)).Goes w
      (fun count after => count = written + 1 ∧ after.Floats way b (sheets ++
        [⟨jsonMime, body ++ ((if 0 < written then Octets.ofText "," else []) ++
          j.withoutPrivate.octets), none, false⟩])) (Cut way b sheets text) := by
  rw [emitElement]
  by_cases later : 0 < written
  · rw [if_pos later] at front ⊢
    rw [if_pos later]
    rw [← List.append_assoc] at front ⊢
    refine (write_last_goes (Octets.ofText ",") floats
      ((List.prefix_append _ _).trans front)).bind ?_
    intro _ separated floats
    refine (write_last_goes j.withoutPrivate.octets floats front).bind ?_
    intro _ after floats
    exact goes_pure _ _ ⟨rfl, floats⟩
  · rw [if_neg later] at front ⊢
    rw [if_neg later]
    refine (write_last_goes j.withoutPrivate.octets floats front).bind ?_
    intro _ after floats
    exact goes_pure _ _ ⟨rfl, floats⟩

/-- The elements that were pulled are written behind each other to the part of their sequence. -/
theorem emitPulls_goes (id : String) (pulls : List Pull) (index written : Nat)
    (floats : w.Floats way b (sheets ++ [⟨jsonMime, body, none, false⟩]))
    (front : body ++ streamed written (listed pulls) <+: text) :
    (emitPulls id sheets.length index written pulls).Goes w
      (fun _ after => after.Floats way b
        (sheets ++ [⟨jsonMime, body ++ streamed written (listed pulls), none, false⟩]))
      (Cut way b sheets text) := by
  -- induction on the pulls still to come, for any text and any count of those before
  induction pulls generalizing w body index written with
  | nil =>
    rw [emitPulls]
    apply (abandoned_ends id floats).goes.bind
    rintro _ _ ⟨rfl, rfl⟩
    exact goes_pure _ _ (by simpa [listed, streamed] using floats)
  | cons pull rest ih =>
    rw [emitPulls]
    apply (abandoned_ends id floats).goes.bind
    rintro _ w ⟨rfl, rfl⟩
    refine (recordAll_ends pull.events floats).goes.bind fun _ _ floats => ?_
    rw [listed] at front ⊢
    match came : pull.came with
    | .error p =>
      refine (Writer.record_ends _ floats).goes.bind fun _ _ floats => goes_pure _ _ ?_
      simpa [streamed] using floats
    | .ok none => exact goes_pure _ _ (by simpa [streamed] using floats)
    | .ok (some (.error reason)) =>
      simp only [came] at front ⊢
      have skipped : (emitElement id sheets.length index written (.error reason)).Ends _
          fun count after => count = written ∧
            after.Floats way b (sheets ++ [⟨jsonMime, body, none, false⟩]) :=
        (Writer.record_ends _ floats).bind fun _ _ kept => ends_pure _ _ _ ⟨rfl, kept⟩
      apply skipped.goes.bind
      rintro _ after ⟨rfl, floats⟩
      exact ih (index + 1) _ floats front
    | .ok (some (.ok j)) =>
      simp only [came] at front ⊢
      have whole : body ++ streamed written (j.withoutPrivate :: listed rest) =
          body ++ ((if 0 < written then Octets.ofText "," else []) ++ j.withoutPrivate.octets) ++
            streamed (written + 1) (listed rest) := by simp [streamed]
      rw [whole] at front ⊢
      refine (emitElement_value_goes id j index written floats
        ((List.prefix_append _ _).trans front)).bind ?_
      rintro _ after ⟨rfl, floats⟩
      exact ih (index + 1) (written + 1) floats front

theorem openSequence_goes (id : String) (floats : w.Floats way b sheets)
    (front : sequenceHead id <+: text) :
    (openSequence id).Goes w (fun handle after => handle = sheets.length ∧
        after.Floats way b (sheets ++ [⟨jsonMime, sequenceHead id, none, false⟩]))
      (Cut way b sheets text) := by
  refine (open_last_goes _ floats).bind ?_
  rintro _ opened ⟨rfl, floats⟩
  refine (write_last_goes (sequenceHead id) floats front).bind ?_
  intro _ begun floats
  exact goes_pure _ _ ⟨rfl, floats⟩

theorem closeSequence_goes
    (floats : w.Floats way b (sheets ++ [⟨jsonMime, body, none, false⟩])) :
    (closeSequence sheets.length).Goes w
      (fun _ after => after.Floats way b (sheets ++ [.json (body ++ sequenceEnd)]))
      (Cut way b sheets (body ++ sequenceEnd)) :=
  (write_last_goes sequenceEnd floats List.prefix_rfl).bind fun _ _ floats =>
    close_last_goes floats

/-- One part for a result, whatever the result is. -/
theorem emitAnswer_goes (debug : Bool) (id : String) (result : Answer)
    (floats : w.Floats way b sheets) :
    (emitAnswer debug id result).Goes w
      (fun _ after => after.Floats way b (sheets ++ [.json (keyed id (result.body debug)).octets]))
      (Cut way b sheets (keyed id (result.body debug)).octets) := by
  match result with
  | .ok (.value (.ok j)) =>
    exact ((writePart_goes _ floats).bind fun _ _ floats => goes_pure _ _ floats).bind
      fun _ _ floats => goes_pure _ _ floats
  | .ok (.value (.error reason)) =>
    exact (emitFailure_goes debug id _ floats).bind fun _ _ floats => goes_pure _ _ floats
  | .ok (.sequence pulls) =>
    rw [Answer.body, ← sequence_text]
    -- the part stays the last one while its head, its elements and its end are written
    refine (openSequence_goes id floats (by simp)).bind ?_
    rintro _ begun ⟨rfl, floats⟩
    refine (emitPulls_goes id pulls 0 0 floats (by simp)).bind ?_
    intro cut through floats
    exact (closeSequence_goes floats).bind fun _ _ floats => goes_pure _ _ floats
  | .error f =>
    exact (emitFailure_goes debug id f floats).bind fun _ _ floats => goes_pure _ _ floats

theorem emitFailure_answers (debug : Bool) (id : String) (f : Failure) :
    (emitFailure debug id f).Answers (· = .failure) :=
  Action.answers_of_last fun _ => Action.answers_of_last fun _ => Action.answers_pure _ _ rfl

theorem emitValue_answers (debug : Bool) (id : String) (json : Except String Json) :
    (emitValue debug id json).Answers (· = Answer.emitted (.ok (.value json))) := by
  cases json with
  | ok j => exact Action.answers_of_last fun _ => Action.answers_pure _ _ rfl
  | error reason => exact emitFailure_answers debug id (.ofConversion reason)

/-- Pulls of which one is the last are not cut short. -/
theorem emitPulls_answers (id : String) (handle index written : Nat) (pulls : List Pull)
    (finite : pulls.any Pull.isLast = true) :
    (emitPulls id handle index written pulls).Answers (· = false) := by
  induction pulls generalizing index written with
  | nil => cases finite
  | cons pull rest ih =>
    rw [emitPulls]
    refine Action.answers_of_last fun gone => ?_
    cases gone with
    | true => exact Action.answers_pure _ _ rfl
    | false =>
      refine Action.answers_of_last fun _ => ?_
      match came : pull.came with
      | .error p => exact Action.answers_of_last fun _ => Action.answers_pure _ _ rfl
      | .ok none => exact Action.answers_pure _ _ rfl
      | .ok (some element) =>
        refine Action.answers_of_last fun count => ih (index + 1) count ?_
        simpa [Pull.isLast, came] using finite

/-- The count of an entry depends on its result alone, not on what became of its part; and no
sequence is cut short that comes to its end. -/
theorem emitAnswer_answers (debug : Bool) (id : String) (result : Answer) :
    (emitAnswer debug id result).Answers fun answer => answer.1 = result.emitted ∧
      (result.isFinite = true → answer.2 = false) := by
  match result with
  | .ok (.value json) =>
    exact (emitValue_answers debug id json).bind fun _ same =>
      Action.answers_pure _ _ ⟨same, fun _ => rfl⟩
  | .ok (.sequence pulls) =>
    have cut (handle : Nat) : (emitPulls id handle 0 0 pulls).Answers fun cut =>
        pulls.any Pull.isLast = true → cut = false := by
      cases finite : pulls.any Pull.isLast with
      | true => exact fun s a t ran _ => emitPulls_answers id handle 0 0 pulls finite s a t ran
      | false => exact fun _ _ _ _ => nofun
    exact Action.answers_of_last fun handle => (cut handle).bind fun _ whole =>
      Action.answers_of_last fun _ => Action.answers_pure _ _ ⟨rfl, whole⟩
  | .error f =>
    exact (emitFailure_answers debug id f).bind fun _ same =>
      Action.answers_pure _ _ ⟨same, fun _ => rfl⟩

end Encoder
end Multicall
