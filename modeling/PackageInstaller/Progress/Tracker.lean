import PackageInstaller.Progress.Record

/-!
The records of all phases in the order in which they began, and for each name the one that is live:
the last, which alone can still be completed or failed.
-/

namespace PackageInstaller

structure Tracker where
  records : List PhaseRecord
  live : List (Text × Nat)

namespace Tracker

def empty : Tracker := ⟨[], []⟩

def live? (t : Tracker) (name : Text) : Option Nat := t.live.lookup name

/-- Adds a record, which is then the live one of its name. -/
def add (t : Tracker) (r : PhaseRecord) : Tracker :=
  ⟨t.records ++ [r], (r.name, t.records.length) :: t.live⟩

def change (t : Tracker) (position : Nat) (f : PhaseRecord → PhaseRecord) : Tracker :=
  { t with records := t.records.modify position f }

def setDetail (t : Tracker) (position : Nat) (detail : Text) : Tracker :=
  t.change position fun r => { r with detail := detail }

def detailAt (t : Tracker) (position : Nat) : Text := ((t.records[position]?).map (·.detail)).getD []

structure Summary where
  phases : List PhaseRecord
  total : Number

def countedDuration? (r : PhaseRecord) : Option Number := PhaseRecord.counted r.duration?

def summary (t : Tracker) : Summary :=
  ⟨t.records, (Number.sum (t.records.filterMap countedDuration?)).toCents⟩

@[simp] theorem live?_add_self (t : Tracker) (r : PhaseRecord) :
    (t.add r).live? r.name = some t.records.length := by
  simp [live?, add]

theorem live?_add_of_ne (t : Tracker) (r : PhaseRecord) {name : Text} (h : name ≠ r.name) :
    (t.add r).live? name = t.live? name := by
  have hb : (name == r.name) = false := by simpa using h
  simp only [live?, add, List.lookup_cons, hb]

@[simp] theorem live?_change (t : Tracker) (position : Nat) (f : PhaseRecord → PhaseRecord)
    (name : Text) : (t.change position f).live? name = t.live? name := rfl

@[simp] theorem length_change (t : Tracker) (position : Nat) (f : PhaseRecord → PhaseRecord) :
    (t.change position f).records.length = t.records.length := by
  simp [change]

end Tracker

end PackageInstaller
