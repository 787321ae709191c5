import KataGo.Suite.Registry

/-! What the log of the registry says by itself: the suite and the champion that are current after it, and
where the facts that the replay records stand in it. -/

namespace KataGo.Suite
open KataGo.Lib

/-- What is current after a log. -/
structure Standing where
  activeSuiteId : Option String
  activatedAt : Option Int
  championSha256 : Option String
  generationId : Option String
  previousChampionSha256 : Option String
  acceptedTimestamps : List Int
  deriving DecidableEq

namespace Standing

def start : Standing := ⟨none, none, none, none, none, []⟩

def next (s : Standing) (e : RegistryEvent) : Standing :=
  match e.payload with
  | .bootstrapped p =>
      ⟨some p.suiteId, some e.timestamp, some p.champion.sha256, some p.generationId, p.previousChampionSha256, []⟩
  | .accepted p =>
      { s with
        championSha256 := some p.champion.sha256
        generationId := some p.generationId
        previousChampionSha256 := some p.previousChampionSha256
        acceptedTimestamps := s.acceptedTimestamps ++ [e.timestamp] }
  | .activated p =>
      { s with activeSuiteId := some p.suiteId, activatedAt := some e.timestamp, acceptedTimestamps := [] }
  | _ => s

end Standing

def standing (log : List RegistryEvent) : Standing := log.foldl Standing.next .start

@[simp] theorem standing_nil : standing [] = .start := rfl

@[simp] theorem standing_concat (log : List RegistryEvent) (e : RegistryEvent) :
    standing (log ++ [e]) = (standing log).next e := by
  rw [standing, List.foldl_append]
  rfl

/-- The same in the state that the replay has reached. -/
def RegistryState.standing (s : RegistryState) : Standing :=
  ⟨s.activeSuiteId, s.activeSuiteActivatedAt, s.currentChampion.map fun champion => champion.sha256,
    s.currentChampion.map Champion.generationId, s.previousChampionSha256, s.acceptedChampionTimestamps⟩

section Records

variable {α : Type} {pick : Payload → Option α} {key : α → String} {log : List RegistryEvent} {d : Dict String (Recorded α)}
  {e : RegistryEvent} {a : α}

/-- A dictionary that has the facts of one kind of event, with the sequence of the event. -/
def Records (pick : Payload → Option α) (key : α → String) (log : List RegistryEvent) (d : Dict String (Recorded α)) : Prop :=
  ∀ k r, d.get k = some r ↔
    ∃ i e, log[i]? = some e ∧ pick e.payload = some r.payload ∧ key r.payload = k ∧ r.sequence = i + 1

theorem records_nil : Records pick key [] .empty := by
  intro k r
  constructor
  · intro found
    cases found
  · rintro ⟨i, e, at_, -⟩
    simp at at_

/-- The events before the last one, or the last one. -/
theorem getElem?_concat_eq_some {i : Nat} {x : RegistryEvent} :
    (log ++ [e])[i]? = some x ↔ log[i]? = some x ∨ i = log.length ∧ e = x := by
  rcases Nat.lt_trichotomy i log.length with before | rfl | after
  · rw [List.getElem?_append_left before]
    exact ⟨.inl, fun either => either.elim id fun last => absurd last.1 before.ne⟩
  · simp
  · have out : (log ++ [e])[i]? = none := by
      rw [List.getElem?_eq_none_iff]
      simp only [List.length_append, List.length_singleton]
      omega
    rw [out, List.getElem?_eq_none_iff.mpr after.le]
    constructor
    · intro found
      cases found
    · rintro (found | ⟨last, -⟩)
      · cases found
      · omega

/-- An event of another kind. -/
theorem Records.other (records : Records pick key log d) (none : pick e.payload = none) : Records pick key (log ++ [e]) d := by
  intro k r
  rw [records k r]
  constructor
  · rintro ⟨i, x, at_, rest⟩
    exact ⟨i, x, getElem?_concat_eq_some.mpr (.inl at_), rest⟩
  · rintro ⟨i, x, at_, picked, rest⟩
    rcases getElem?_concat_eq_some.mp at_ with before | ⟨-, rfl⟩
    · exact ⟨i, x, before, picked, rest⟩
    · cases none.symm.trans picked

/-- An event of this kind, with a new key. -/
theorem Records.set (records : Records pick key log d) (picked : pick e.payload = some a) (fresh : d.get (key a) = none) :
    Records pick key (log ++ [e]) (d.set (key a) ⟨a, log.length + 1⟩) := by
  intro k r
  rw [Dict.get_set]
  by_cases same : k = key a
  · rw [if_pos same]
    constructor
    · intro found
      cases found
      exact ⟨log.length, e, getElem?_concat_eq_some.mpr (.inr ⟨rfl, rfl⟩), picked, same.symm, rfl⟩
    · rintro ⟨i, x, at_, picked', named, sequence⟩
      rcases getElem?_concat_eq_some.mp at_ with before | ⟨rfl, rfl⟩
      · have found := (records k r).mpr ⟨i, x, before, picked', named, sequence⟩
        rw [same, fresh] at found
        cases found
      · cases r
        cases picked.symm.trans picked'
        cases sequence
        rfl
  · rw [if_neg same, records k r]
    constructor
    · rintro ⟨i, x, at_, rest⟩
      exact ⟨i, x, getElem?_concat_eq_some.mpr (.inl at_), rest⟩
    · rintro ⟨i, x, at_, picked', named, sequence⟩
      rcases getElem?_concat_eq_some.mp at_ with before | ⟨-, rfl⟩
      · exact ⟨i, x, before, picked', named, sequence⟩
      · cases picked.symm.trans picked'
        exact absurd named.symm same

end Records

namespace Payload

def request? : Payload → Option Request
  | requested p => some p
  | _ => none

def registration? : Payload → Option Registration
  | registered p => some p
  | _ => none

def continuity? : Payload → Option Continuity
  | continuity p => some p
  | _ => none

def boundary? : Payload → Option Boundary
  | boundary p => some p
  | _ => none

end Payload

/-- An evaluation that is pinned in a log, and not unpinned after that. -/
def OpenPin (log : List RegistryEvent) (p : Pin) : Prop :=
  ∃ (i : Nat) (e : RegistryEvent), log[i]? = some e ∧ e.payload = .pinned p ∧
    ∀ (j : Nat) (e' : RegistryEvent) (q : Pin), i < j → log[j]? = some e' → e'.payload = .unpinned q →
      q.evaluationId ≠ p.evaluationId

theorem OpenPin.concat {log : List RegistryEvent} {e : RegistryEvent} {p : Pin} (still : OpenPin (log ++ [e]) p) :
    e.payload = .pinned p ∨ OpenPin log p ∧ ∀ q, e.payload = .unpinned q → q.evaluationId ≠ p.evaluationId := by
  obtain ⟨i, x, at_, pinned, after⟩ := still
  rcases getElem?_concat_eq_some.mp at_ with before | ⟨-, rfl⟩
  · have inside : i < log.length := (List.getElem?_eq_some_iff.mp before).1
    refine .inr ⟨⟨i, x, before, pinned, fun j e' q later there => after j e' q later ?_⟩, fun q => ?_⟩
    · exact getElem?_concat_eq_some.mpr (.inl there)
    · exact after log.length e q inside (getElem?_concat_eq_some.mpr (.inr ⟨rfl, rfl⟩))
  · exact .inl pinned

end KataGo.Suite
