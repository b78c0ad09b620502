import Mathlib.Data.List.Perm.Basic
import Multicall.Proofs.KeptHandlers
import Multicall.Proofs.Making
/-!
The ledger of handlers. A handler is entered when it is built and struck out when its hook runs, so
that those which are open can be told from all that has been done. Whatever a factory does, the load of
a namespace ends with one open handler more, the one it yields, or with none.
-/
namespace Multicall

variable {ω α β : Type}

namespace Course

variable {σ τ : Type}

/-- Code that waits for nothing and ends so. -/
inductive Settles (after : Except Panic α → σ → Prop) : Course σ α → Prop
  | ended {outcome s} (holds : after outcome s) : Settles after (.ended outcome s)
  | send {c} (command : PartCommand) (rest : Settles after c) : Settles after (.send command c)
  | record {c} (e : Event) (rest : Settles after c) : Settles after (.record e c)

variable {after : Except Panic α → σ → Prop} {c : Course σ α}

theorem settles_of_prompt (prompt : c.IsPrompt) (holds : after c.outcome c.finalState) :
    c.Settles after := by
  induction c with
  | ended outcome s => exact .ended holds
  | send command _ ih => exact .send command (ih prompt holds)
  | record e _ ih => exact .record e (ih prompt holds)
  | suspend _ _ _ => exact prompt.elim

theorem Settles.prompt (settles : c.Settles after) : c.IsPrompt := by
  induction settles with
  | ended _ => trivial
  | send _ _ ih | record _ _ ih => exact ih

theorem Settles.reached (settles : c.Settles after) : after c.outcome c.finalState := by
  induction settles with
  | ended holds => exact holds
  | send _ _ ih | record _ _ ih => exact ih

theorem Settles.andThen {later : Except Panic β → σ → Prop} {f : α → σ → Course σ β}
    (settles : c.Settles after) (next : ∀ a s, after (.ok a) s → (f a s).Settles later)
    (stop : ∀ p s, after (.error p) s → later (.error p) s) : (c.andThen f).Settles later := by
  induction settles with
  | @ended outcome s holds =>
    cases outcome with
    | ok a => exact next a s holds
    | error p => exact .ended (stop p s holds)
  | send command _ ih => exact .send command ih
  | record e _ ih => exact .record e ih

theorem Settles.attempt (settles : c.Settles after) :
    c.attempt.Settles fun result s => ∃ own, result = .ok own ∧ after own s := by
  induction settles with
  | ended holds => exact .ended ⟨_, rfl, holds⟩
  | send command _ ih => exact .send command ih
  | record e _ ih => exact .record e ih

theorem Settles.mapState {outer : Except Panic α → τ → Prop} {f : σ → τ}
    (settles : c.Settles after) (put : ∀ result s, after result s → outer result (f s)) :
    (c.mapState f).Settles outer := by
  induction settles with
  | ended holds => exact .ended (put _ _ holds)
  | send command _ ih => exact .send command ih
  | record e _ ih => exact .record e ih

theorem Settles.andThen_stays {kind : σ → Prop} {answers : β → Prop} {f : α → σ → Course σ β}
    (settles : c.Settles after) (next : ∀ a s, after (.ok a) s → (f a s).Stays kind answers)
    (stop : ∀ p s, after (.error p) s → kind s) : (c.andThen f).Stays kind answers := by
  induction settles with
  | @ended outcome s holds =>
    cases outcome with
    | ok a => exact next a s holds
    | error p => exact .panicked (stop p s holds)
  | send command _ ih => exact .send command ih
  | record e _ ih => exact .record e ih

end Course

/-! What has become of drafts. -/

/-- All that has become of one draft, in order. -/
def history (number : Nat) (deeds : List Deed) : List Deed :=
  deeds.filter (·.number == number)

theorem history_append (number : Nat) (deeds more : List Deed) :
    history number (deeds ++ more) = history number deeds ++ history number more :=
  List.filter_append ..

theorem history_concat (number : Nat) (deeds : List Deed) (d : Deed) :
    history number (deeds ++ [d]) =
      if d.number = number then history number deeds ++ [d] else history number deeds := by
  by_cases own : d.number = number <;> simp [history, own]

/-- With a draft all is done: it was refused, and no hook of it has run; or it was built, and behind
that its hook has run, once and with the name that it was built under. -/
inductive Deed.Over (number : Nat) : List Deed → Prop
  | refused (name : String) : Over number [.refused number name]
  | closed (name : String) : Over number [.built number name, .closed number name]

/-- These handlers are open, each under its number and its name; with all other drafts so far all is
done. -/
structure Ledger (live : List (Nat × String)) (deeds : List Deed) : Prop where
  apart : (live.map Prod.fst).Nodup
  present : ∀ entry ∈ live, history entry.1 deeds = [.built entry.1 entry.2]
  past : ∀ number < drafts deeds, number ∉ live.map Prod.fst →
    Deed.Over number (history number deeds)
  future : ∀ number, drafts deeds ≤ number → history number deeds = []

namespace Ledger

variable {live others : List (Nat × String)} {deeds : List Deed} {entry : Nat × String}

theorem start : Ledger [] [] where
  apart := List.nodup_nil
  present _ among := nomatch among
  past _ below := nomatch below
  future _ _ := rfl

theorem perm (ledger : Ledger live deeds) (same : live.Perm others) : Ledger others deeds where
  apart := (same.map Prod.fst).nodup_iff.mp ledger.apart
  present entry among := ledger.present entry (same.mem_iff.mpr among)
  past number below absent := ledger.past number below fun among =>
    absent ((same.map Prod.fst).mem_iff.mp among)
  future := ledger.future

theorem below (ledger : Ledger live deeds) {number : Nat} (among : number ∈ live.map Prod.fst) :
    number < drafts deeds := by
  by_contra beyond
  obtain ⟨entry, known, rfl⟩ := List.mem_map.mp among
  have nothing := ledger.future entry.1 (Nat.le_of_not_lt beyond)
  rw [ledger.present entry known] at nothing
  cases nothing

/-- What is done between two ledgers, told draft by draft: nothing; or all of it; or the draft was built
and is open from then on. -/
theorem added {out : List (Nat × String)} {more : List Deed} (before : Ledger live deeds)
    (after : Ledger (out ++ live) (deeds ++ more)) (number : Nat) :
    history number more = [] ∨ Deed.Over number (history number more) ∨
      ∃ name, (number, name) ∈ out ∧ history number more = [.built number name] := by
  have whole := history_append number deeds more
  have counted : drafts deeds ≤ drafts (deeds ++ more) := by simp [drafts]
  -- of a draft that was numbered before, only its closing can be new; the history of one that was
  -- numbered since is new as a whole
  by_cases old : number < drafts deeds
  · left
    by_cases among : number ∈ live.map Prod.fst
    · obtain ⟨entry, known, rfl⟩ := List.mem_map.mp among
      rw [after.present entry (List.mem_append_right out known), before.present entry known] at whole
      simpa using whole
    · have past := before.past number old among
      by_cases opened : number ∈ (out ++ live).map Prod.fst
      · obtain ⟨entry, known, rfl⟩ := List.mem_map.mp opened
        rw [after.present entry known] at whole
        generalize history entry.1 deeds = sofar at past whole
        cases past <;> simp at whole
      · have still := after.past number (Nat.lt_of_lt_of_le old counted) opened
        rw [whole] at still
        generalize history number deeds = sofar at past still
        generalize history number more = rest at still
        generalize all : sofar ++ rest = both at still
        cases past <;> cases still <;> simp_all
  · rw [before.future number (Nat.le_of_not_lt old), List.nil_append] at whole
    rw [← whole]
    by_cases new : number < drafts (deeds ++ more)
    · right
      by_cases opened : number ∈ (out ++ live).map Prod.fst
      · obtain ⟨entry, known, rfl⟩ := List.mem_map.mp opened
        rcases List.mem_append.mp known with out | older
        · exact .inr ⟨entry.2, out, after.present entry known⟩
        · exact absurd (before.below (List.mem_map_of_mem older)) old
      · exact .inl (after.past number new opened)
    · exact .inl (after.future number (Nat.le_of_not_lt new))

theorem refused (ledger : Ledger live deeds) (name : String) :
    Ledger live (deeds ++ [.refused (drafts deeds) name]) := by
  have counted : drafts (deeds ++ [.refused (drafts deeds) name]) = drafts deeds + 1 := by
    simp [drafts, Deed.isDraft]
  constructor
  · exact ledger.apart
  · intro entry among
    have older := ledger.below (List.mem_map_of_mem among)
    rw [history_concat, Deed.number, if_neg (Nat.ne_of_gt older)]
    exact ledger.present entry among
  · intro number below absent
    rw [counted] at below
    by_cases last : drafts deeds = number
    · subst last
      rw [history_concat, Deed.number, if_pos rfl, ledger.future _ (Nat.le_refl _)]
      exact .refused name
    · rw [history_concat, Deed.number, if_neg last]
      exact ledger.past number (by omega) absent
  · intro number beyond
    rw [counted] at beyond
    rw [history_concat, Deed.number, if_neg (Nat.ne_of_lt beyond)]
    exact ledger.future number (by omega)

theorem built (ledger : Ledger live deeds) (name : String) :
    Ledger ((drafts deeds, name) :: live) (deeds ++ [.built (drafts deeds) name]) := by
  have counted : drafts (deeds ++ [.built (drafts deeds) name]) = drafts deeds + 1 := by
    simp [drafts, Deed.isDraft]
  constructor
  · have fresh : drafts deeds ∉ live.map Prod.fst := fun among =>
      Nat.lt_irrefl _ (ledger.below among)
    exact List.nodup_cons.mpr ⟨fresh, ledger.apart⟩
  · refine List.forall_mem_cons.mpr ⟨?_, ?_⟩
    · rw [history_concat, Deed.number, if_pos rfl, ledger.future _ (Nat.le_refl _)]
      rfl
    · intro entry among
      have older := ledger.below (List.mem_map_of_mem among)
      rw [history_concat, Deed.number, if_neg (Nat.ne_of_gt older)]
      exact ledger.present entry among
  · intro number below absent
    rw [counted] at below
    rw [List.map_cons, List.mem_cons, not_or] at absent
    rw [history_concat, Deed.number, if_neg (Ne.symm absent.1)]
    exact ledger.past number (Nat.lt_of_le_of_ne (Nat.le_of_lt_succ below) absent.1) absent.2
  · intro number beyond
    rw [counted] at beyond
    rw [history_concat, Deed.number, if_neg (Nat.ne_of_lt beyond)]
    exact ledger.future number (by omega)

theorem closed (ledger : Ledger (entry :: live) deeds) :
    Ledger live (deeds ++ [.closed entry.1 entry.2]) := by
  have counted : drafts (deeds ++ [.closed entry.1 entry.2]) = drafts deeds := by
    simp [drafts, Deed.isDraft]
  obtain ⟨own, apart⟩ := List.nodup_cons.mp ledger.apart
  obtain ⟨opened, present⟩ := List.forall_mem_cons.mp ledger.present
  constructor
  · exact apart
  · intro other among
    have differs : entry.1 ≠ other.1 := fun same => own (same ▸ List.mem_map_of_mem among)
    rw [history_concat, Deed.number, if_neg differs]
    exact present other among
  · intro number below absent
    rw [counted] at below
    by_cases same : entry.1 = number
    · subst same
      rw [history_concat, Deed.number, if_pos rfl, opened]
      exact .closed entry.2
    · rw [history_concat, Deed.number, if_neg same]
      refine ledger.past number below ?_
      rw [List.map_cons, List.mem_cons, not_or]
      exact ⟨Ne.symm same, absent⟩
  · intro number beyond
    rw [counted] at beyond
    have older : entry.1 < drafts deeds := ledger.below List.mem_cons_self
    rw [history_concat, Deed.number, if_neg (Nat.ne_of_lt (Nat.lt_of_lt_of_le older beyond))]
    exact ledger.future number beyond

theorem closed_all (ledger : Ledger live deeds) :
    Ledger [] (deeds ++ live.map fun entry => .closed entry.1 entry.2) := by
  induction live generalizing deeds with
  | nil => rwa [List.map_nil, List.append_nil]
  | cons entry rest ih =>
    rw [List.map_cons, List.append_cons]
    exact ih ledger.closed

end Ledger

/-! What a load enters in the ledger. -/

/-- A handler that is tracked under this number, has this name, and waits for nothing when it closes. -/
def Handler.Numbered (h : Handler (Tracked ω)) (entry : Nat × String) : Prop :=
  ∃ own : Handler ω, (∀ hook, own.onClose = some hook → ∀ name m, (hook name m).IsPrompt) ∧
    own.name = entry.2 ∧ h = own.tracked entry.1

theorem Handler.Numbered.name {h : Handler (Tracked ω)} {entry : Nat × String}
    (numbered : h.Numbered entry) : h.name = entry.2 := by
  obtain ⟨own, -, named, rfl⟩ := numbered
  exact named

/-- Modules with these open handlers, whose list goes on from a front piece. -/
structure Tracked.Books (front : List Deed) (live : List (Nat × String))
    (m : ModuleState (Tracked ω)) : Prop where
  front : front <+: m.world.log
  ledger : Ledger live m.world.log

/-- What making a handler ends with: one open handler more if there is one to be handed over. -/
def Tracked.Hands (front : List Deed) (live : List (Nat × String)) :
    Except Panic (Except LoadError (Handler (Tracked ω))) → ModuleState (Tracked ω) → Prop
  | .ok (.ok h), m => ∃ entry, h.Numbered entry ∧ Books front (entry :: live) m
  | .ok (.error _), m | .error _, m => Books front live m

section Loads

variable {front : List Deed} {live : List (Nat × String)} {entry : Nat × String}
  {h : Handler (Tracked ω)} {m : ModuleState (Tracked ω)}

open Tracked

theorem Tracked.Books.perm {others : List (Nat × String)} (books : Books front live m)
    (same : live.Perm others) : Books front others m :=
  ⟨books.front, books.ledger.perm same⟩

theorem Tracked.Books.note (books : Books front live m) {more : List (Nat × String)} {d : Deed}
    {after : ModuleState (Tracked ω)} (ledger : Ledger more (m.world.log ++ [d]))
    (noted : after.world.log = m.world.log ++ [d]) : Books front more after := by
  constructor
  · rw [noted]
    exact books.front.trans (List.prefix_append _ _)
  · rwa [noted]

theorem Logged.unseen_settles {code : ModuleCode ω α} (prompt : ∀ m, (code m).IsPrompt)
    (m : ModuleState (Tracked ω)) :
    (unseen code m).Settles fun _ after => after.world.log = m.world.log :=
  (Course.settles_of_prompt (prompt _) trivial).mapState fun _ _ (_ : True) => rfl

theorem Handler.Numbered.close (numbered : h.Numbered entry) (m : ModuleState (Tracked ω)) :
    (h.close m).Settles fun _ after =>
      after.world.log = m.world.log ++ [.closed entry.1 entry.2] := by
  obtain ⟨own, prompt, named, rfl⟩ := numbered
  show (CloseHook.tracked entry.1 own.onClose own.name m).Settles _
  rw [named]
  cases hooked : own.onClose with
  | none => exact .ended rfl
  | some hook =>
    exact Logged.unseen_settles (prompt hook hooked entry.2)
      ⟨⟨m.world.world, m.world.log ++ [.closed entry.1 entry.2]⟩, m.nextStream⟩

theorem Handler.Numbered.close_books (numbered : h.Numbered entry)
    (books : Books front (entry :: live) m) : (h.close m).Settles fun _ => Books front live := by
  refine Course.settles_of_prompt (numbered.close m).prompt ?_
  exact books.note books.ledger.closed (numbered.close m).reached

theorem Draft.build_keeps {d : Draft ω} {h : Handler ω} (built : d.build = .ok h) :
    h.name = d.name ∧ h.onClose = d.onClose := by
  rw [build] at built
  cases entered : enter d.name [] d.operations with
  | error e =>
    rw [entered] at built
    cases built
  | ok table =>
    rw [entered] at built
    cases built
    exact ⟨rfl, rfl⟩

namespace Making

theorem release_settles {held : List (Handler (Tracked ω))} {entries : List (Nat × String)}
    (numbered : List.Forall₂ Handler.Numbered held entries)
    (books : Books front (entries ++ live) m) :
    (release held m).Settles fun result after =>
      (∃ came, result = .ok came) ∧ Books front live after := by
  induction numbered generalizing m with
  | nil => exact .ended ⟨⟨_, rfl⟩, books⟩
  | cons first _ ih =>
    refine (first.close_books books).attempt.andThen ?_ ?_
    · rintro came closed ⟨_, -, books⟩
      refine (ih books).andThen ?_ ?_
      · rintro later _ ⟨-, books⟩
        exact .ended ⟨⟨_, rfl⟩, books⟩
      · rintro _ _ ⟨⟨_, ⟨⟩⟩, _⟩
    · rintro _ _ ⟨_, ⟨⟩, _⟩

theorem leave_settles {held : List (Handler (Tracked ω))} {entries : List (Nat × String)}
    (numbered : List.Forall₂ Handler.Numbered held entries)
    {built : Except LoadError (Handler (Tracked ω))} {out : List (Nat × String)}
    (leaving : List.Forall₂ Handler.Numbered built.toOption.toList out)
    (books : Books front (entries ++ (out ++ live)) m) :
    (leave held (.ok built) m).Settles (Hands front live) := by
  refine (release_settles numbered books).andThen ?_ ?_
  · rintro came _ ⟨-, books⟩
    cases came with
    | ok _ =>
      cases built with
      | error e =>
        cases leaving
        exact .ended books
      | ok h =>
        obtain ⟨entry, _, numbered, nothing, rfl⟩ := List.forall₂_cons_left_iff.mp leaving
        cases nothing
        exact .ended ⟨entry, numbered, books⟩
    | error p =>
      refine (release_settles leaving books).andThen ?_ ?_
      · rintro _ _ ⟨-, books⟩
        exact .ended books
      · rintro _ _ ⟨⟨_, ⟨⟩⟩, _⟩
  · rintro _ _ ⟨⟨_, ⟨⟩⟩, _⟩

theorem leave_panic_settles {held : List (Handler (Tracked ω))} {entries : List (Nat × String)}
    (numbered : List.Forall₂ Handler.Numbered held entries)
    (books : Books front (entries ++ live) m) (p : Panic) :
    (leave held (.error p) m).Settles (Hands front live) := by
  refine (release_settles numbered books).andThen ?_ ?_
  · rintro _ _ ⟨-, books⟩
    exact .ended books
  · rintro _ _ ⟨⟨_, ⟨⟩⟩, _⟩

theorem perm_eraseIdx {n : Nat} (entries : List.Vector (Nat × String) n) (place : Fin n) :
    entries.toList.Perm (entries.get place :: (entries.eraseIdx place).toList) := by
  obtain ⟨entries, rfl⟩ := entries
  exact (List.getElem_cons_eraseIdx_perm place.isLt).symm

/-- Whatever a factory does, what it has built and does not hand over is closed when it ends. -/
theorem go_settles {n : Nat} (making : Making ω n) {held : List.Vector (Handler (Tracked ω)) n}
    {entries : List.Vector (Nat × String) n}
    (numbered : List.Forall₂ Handler.Numbered held.toList entries.toList)
    (books : Books front (entries.toList ++ live) m) :
    (making.tracked.go held m).Settles (Hands front live) := by
  -- induction on the factory's deeds: at every point the books name what is held, in its order, in
  -- front of what was open before, so leaving there closes exactly what the factory has built
  induction making generalizing m with
  | does code prompt next ih =>
    rw [Making.tracked, go_does]
    refine (Logged.unseen_settles prompt m).attempt.andThen ?_ ?_
    · rintro came after ⟨_, ⟨⟩, same⟩
      have still : Books front (entries.toList ++ live) after := by
        refine ⟨?_, ?_⟩
        · rw [same]
          exact books.front
        · rw [same]
          exact books.ledger
      cases came with
      | ok a => exact ih a numbered still
      | error p => exact leave_panic_settles numbered still p
    · rintro _ _ ⟨_, ⟨⟩, _⟩
  | builds draft prompt refused built ihRefused ihBuilt =>
    rw [Making.tracked, go_does]
    show ((Making.builds (draft.tracked (drafts m.world.log)) _ _ _).go held m).Settles _
    rw [go, Draft.build_tracked]
    cases made : draft.build with
    | error e =>
      dsimp only [Except.map]
      rw [go_does]
      exact ihRefused e numbered (books.note (books.ledger.refused draft.name) rfl)
    | ok h =>
      obtain ⟨named, hooked⟩ := Draft.build_keeps made
      have fresh : (h.tracked (drafts m.world.log)).Numbered
          (drafts m.world.log, draft.name) := by
        refine ⟨h, ?_, named, rfl⟩
        rw [hooked]
        exact prompt
      have more : List.Forall₂ Handler.Numbered (held.cons (h.tracked (drafts m.world.log))).toList
          (entries.cons (drafts m.world.log, draft.name)).toList := .cons fresh numbered
      dsimp only [Except.map]
      rw [go_does]
      exact ihBuilt more (books.note (books.ledger.built draft.name) rfl)
  | drops place next ih =>
    have books := books.perm ((perm_eraseIdx entries place).append_right live)
    refine ((forall₂_get numbered place).close_books books).attempt.andThen ?_ ?_
    · rintro came _ ⟨_, -, books⟩
      cases came with
      | ok _ => exact ih (forall₂_eraseIdx numbered place) books
      | error p => exact leave_panic_settles (forall₂_eraseIdx numbered place) books p
    · rintro _ _ ⟨_, ⟨⟩, _⟩
  | hands place =>
    have books := books.perm ((perm_eraseIdx entries place).append_right live)
    exact leave_settles (forall₂_eraseIdx numbered place) (.cons (forall₂_get numbered place) .nil)
      (books.perm List.perm_middle.symm)
  | fails e => exact leave_settles numbered .nil books

theorem factory_settles (making : ModuleContext → Making ω 0) (ctx : ModuleContext)
    (books : Books front live m) :
    (factory (fun ctx => (making ctx).tracked) ctx m).Settles (Hands front live) := by
  have nothing_held : List.Forall₂ Handler.Numbered
      (List.Vector.nil : List.Vector (Handler (Tracked ω)) 0).toList
      (List.Vector.nil : List.Vector (Nat × String) 0).toList := .nil
  exact go_settles (making ctx) nothing_held books

end Making

theorem check_settles (name : String) {built : Except LoadError (Handler (Tracked ω))}
    (hands : Hands front live (.ok built) m) :
    (Registry.check name built m).Settles (Hands front live) := by
  cases built with
  | error e => exact .ended hands
  | ok h =>
    obtain ⟨entry, numbered, books⟩ := hands
    rw [Registry.check]
    by_cases named : h.name = name
    · rw [if_pos named]
      exact .ended ⟨entry, numbered, books⟩
    · rw [if_neg named]
      exact (numbered.close_books books).andThen (fun _ _ books => .ended books)
        fun _ _ books => books

/-- A load ends with one open handler more, the one it yields, or with none. -/
theorem load_settles (works : Works ω) (name : String) (books : Books front live m) :
    (works.tracked.setting.load name m).Settles (Hands front live) := by
  rw [Setting.load, Registry.load]
  cases found : works.tracked.setting.registry.factories.get? name with
  | none => exact .ended books
  | some factory =>
    obtain ⟨_, tracked, made⟩ := List.mem_map.mp (Assoc.mem_of_get? found)
    obtain ⟨⟨_, making⟩, -, rfl⟩ := List.mem_map.mp tracked
    obtain rfl := congrArg Prod.snd made
    dsimp only
    cases works.tracked.setting.registry.manifest name with
    | error e => exact .ended books
    | ok manifest =>
      exact (Making.factory_settles making _ books).andThen
        (fun _ _ hands => check_settles name hands) fun _ _ books => books

end Loads

end Multicall
