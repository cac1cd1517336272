import Mathlib.Data.List.Induction
import PackageInstaller.Proofs.Moves

/-! The records as a log: the live record of a name is the last one of that name, new records come at the end,
and only the last record of a name is ever completed or failed. -/

namespace PackageInstaller

/-- The position of the last occurrence of a name. -/
def LastAt (names : List Text) (name : Text) (i : Nat) : Prop :=
  names[i]? = some name ∧ ∀ j, i < j → names[j]? ≠ some name

variable {ns : List Text} {name other : Text} {i j : Nat}

lemma LastAt.unique (h : LastAt ns name i) (h' : LastAt ns name j) : i = j := by
  rcases Nat.lt_trichotomy i j with hlt | heq | hgt
  · exact absurd h'.1 (h.2 j hlt)
  · exact heq
  · exact absurd h.1 (h'.2 i hgt)

lemma LastAt.mem (h : LastAt ns name i) : name ∈ ns := List.mem_of_getElem? h.1

lemma lastAt_concat (ns : List Text) (name : Text) : LastAt (ns ++ [name]) name ns.length := by
  refine ⟨List.getElem?_concat_length, fun j hj hno => ?_⟩
  rw [List.getElem?_eq_none (by rw [List.length_append]; exact hj)] at hno
  simp at hno

lemma lastAt_concat_of_ne (h : other ≠ name) : LastAt (ns ++ [other]) name i ↔ LastAt ns name i := by
  have hsame : ∀ j, (ns ++ [other])[j]? = some name ↔ ns[j]? = some name := fun j => by
    rw [List.getElem?_append]
    split_ifs with hj
    · rfl
    · rw [List.getElem?_eq_none (Nat.le_of_not_lt hj), List.getElem?_singleton]
      split_ifs <;> simp [h]
  simp only [LastAt, ne_eq, hsame]

lemma exists_lastAt (h : name ∈ ns) : ∃ i, LastAt ns name i := by
  induction ns using List.reverseRecOn with
  | nil => simp at h
  | append_singleton ns other ih =>
    by_cases heq : other = name
    · exact ⟨ns.length, heq ▸ lastAt_concat ns other⟩
    · obtain ⟨i, hi⟩ := ih (by simpa [Ne.symm heq] using h)
      exact ⟨i, (lastAt_concat_of_ne heq).mpr hi⟩

namespace Tracker

def names (t : Tracker) : List Text := t.records.map (·.name)

/-- The live record of the name is the last one, and there is one if the name occurs. -/
def Tracks (t : Tracker) (name : Text) : Prop := ∀ i, t.live? name = some i ↔ LastAt t.names name i

/-- What is done for a name leaves the records as they are, or one record is new and the last, or the last
record of the name is another one, with the same name and start. -/
inductive Appends (t : Tracker) (name : Text) : List PhaseRecord → Prop
  | same : Appends t name t.records
  | added (r : PhaseRecord) (h : r.name = name) : Appends t name (t.records ++ [r])
  | changed {i : Nat} {r : PhaseRecord} (r' : PhaseRecord) (hlast : LastAt t.names name i)
    (hr : t.records[i]? = some r) (hname : r'.name = r.name) (hstarted : r'.started = r.started) :
    Appends t name (t.records.set i r')

variable {t : Tracker} {r r' : PhaseRecord}

@[simp] lemma names_add (t : Tracker) (r : PhaseRecord) : (t.add r).names = t.names ++ [r.name] := by
  simp [names, add]

lemma length_names (t : Tracker) : t.names.length = t.records.length := List.length_map _

lemma records_change (t : Tracker) (i : Nat) (r' : PhaseRecord) :
    (t.change i fun _ => r').records = t.records.set i r' :=
  haveI : Inhabited PhaseRecord := ⟨r'⟩
  List.modify_eq_set _ _ _

lemma names_change (h : t.records[i]? = some r) (hname : r'.name = r.name) :
    (t.change i fun _ => r').names = t.names := by
  have hi : t.names[i]? = some r.name := by rw [names, List.getElem?_map, h, Option.map_some]
  rw [names, records_change, List.map_set, hname]
  change t.names.set i r.name = t.names
  obtain ⟨hlt, heq⟩ := List.getElem?_eq_some_iff.mp hi
  rw [← heq, List.set_getElem_self]

@[simp] lemma names_setDetail (t : Tracker) (i : Nat) (detail : Text) :
    (t.setDetail i detail).names = t.names := by
  refine List.ext_getElem? fun j => ?_
  rw [names, names, setDetail, change, List.getElem?_map, List.getElem?_map, List.getElem?_modify]
  cases t.records[j]? with
  | none => rfl
  | some r => simp [apply_ite PhaseRecord.name]

lemma tracks_add_self (t : Tracker) (r : PhaseRecord) : (t.add r).Tracks r.name := by
  intro i
  rw [live?_add_self, names_add, ← length_names]
  constructor
  · intro h
    exact Option.some.inj h ▸ lastAt_concat _ _
  · intro h
    rw [(lastAt_concat _ _).unique h]

lemma Tracks.add (h : t.Tracks name) (r : PhaseRecord) : (t.add r).Tracks name := by
  by_cases hne : r.name = name
  · exact hne ▸ tracks_add_self t r
  · intro i
    rw [live?_add_of_ne _ _ (Ne.symm hne), names_add, lastAt_concat_of_ne hne]
    exact h i

lemma Tracks.of_names {t' : Tracker} (h : t.Tracks name) (hnames : t'.names = t.names) (hlive : t'.live = t.live) :
    t'.Tracks name := by
  intro i
  rw [hnames, live?, hlive]
  exact h i

lemma Tracks.record (h : t.Tracks name) (hlive : t.live? name = some i) : ∃ r, t.records[i]? = some r ∧ r.name = name := by
  have hi := ((h i).mp hlive).1
  rw [names, List.getElem?_map, Option.map_eq_some_iff] at hi
  exact hi

lemma Tracks.isSome_iff (h : t.Tracks name) : (t.live? name).isSome ↔ name ∈ t.names := by
  rw [Option.isSome_iff_exists]
  constructor
  · rintro ⟨i, hi⟩
    exact ((h i).mp hi).mem
  · intro hmem
    obtain ⟨i, hi⟩ := exists_lastAt hmem
    exact ⟨i, (h i).mpr hi⟩

end Tracker

namespace Progress

open Tracker

variable {p q : Progress}

lemma Follows.tracks (h : p.Follows name q) {n : Text} (ht : p.tracker.Tracks n) : q.tracker.Tracks n := by
  cases h with
  | idle _ => exact ht
  | added clock r _ =>
    rw [notify_tracker]
    exact ht.add r
  | changed clock r' _ hr hname _ =>
    rw [notify_tracker]
    exact ht.of_names (names_change hr hname) rfl

lemma move_unnamed {m : Move} (h : m.name? = none) :
    (p.move m).tracker.names = p.tracker.names ∧ (p.move m).tracker.live = p.tracker.live := by
  cases m with
  | note position detail => exact ⟨names_setDetail _ _ _, rfl⟩
  | listen listener => exact ⟨rfl, rfl⟩
  | setClock now => exact ⟨rfl, rfl⟩
  | _ => simp [Move.name?] at h

lemma Follows.names (h : p.Follows name q) : p.tracker.names <+: q.tracker.names := by
  cases h with
  | idle _ => exact List.prefix_rfl
  | added clock r _ =>
    rw [notify_tracker, names_add]
    exact List.prefix_append _ _
  | changed clock r' _ hr hname _ =>
    rw [notify_tracker]
    exact (names_change hr hname).symm ▸ List.prefix_rfl

lemma names_move (p : Progress) (m : Move) : p.tracker.names <+: (p.move m).tracker.names := by
  cases hm : m.name? with
  | some n => exact (move_follows hm).names
  | none => exact (move_unnamed hm).1 ▸ List.prefix_rfl

lemma names_moveAll (p : Progress) (moves : List Move) : p.tracker.names <+: (p.moveAll moves).tracker.names := by
  induction moves generalizing p with
  | nil => exact List.prefix_rfl
  | cons m moves ih => exact (names_move p m).trans (ih _)

lemma tracks_move (h : p.tracker.Tracks name) (m : Move) : (p.move m).tracker.Tracks name := by
  cases hm : m.name? with
  | some n => exact (move_follows hm).tracks h
  | none => exact h.of_names (move_unnamed hm).1 (move_unnamed hm).2

lemma tracks_moveAll (h : p.tracker.Tracks name) (moves : List Move) : (p.moveAll moves).tracker.Tracks name := by
  induction moves generalizing p with
  | nil => exact h
  | cons m moves ih => exact ih (tracks_move h m)

lemma Reachable.tracks (h : p.Reachable) (name : Text) : p.tracker.Tracks name := by
  induction h with
  | start clock listeners => exact fun i => by simp [LastAt, names, live?, Progress.start, Tracker.empty]
  | move _ m ih => exact tracks_move ih m

lemma Follows.appends (h : p.Follows name q) (ht : p.tracker.Tracks name) :
    p.tracker.Appends name q.tracker.records := by
  cases h with
  | idle _ => exact .same
  | added clock r hr =>
    rw [notify_tracker]
    exact .added r hr
  | @changed clock i r r' hlive hr hname hstarted =>
    rw [notify_tracker, records_change]
    exact .changed r' ((ht i).mp hlive) hr hname hstarted

lemma settle_unknown (h : p.tracker.Tracks name) (hno : name ∉ p.tracker.names)
    (f : PhaseRecord → Number → PhaseRecord) : p.settle name f = p := by
  rcases p.settle_cases name f with ⟨heq, -⟩ | ⟨i, r, hlive, -, -⟩
  · exact heq
  · exact absurd ((h i).mp hlive).mem hno

/-- In every state that a tracker can be in, the live record of a name is the last one of it, and the names
that have one are those that occur. Whatever is done for a name, directly or by a phase that begins or ends,
only adds a record at the end or changes the last one of the name; a name that does not occur is let pass. -/
theorem records_append_only (hp : p.Reachable) :
    (∀ name i, p.tracker.live? name = some i ↔ LastAt p.tracker.names name i) ∧
    (∀ name, (p.tracker.live? name).isSome ↔ name ∈ p.tracker.names) ∧
    (∀ m name, m.name? = some name → p.tracker.Appends name (p.move m).tracker.records) ∧
    (∀ name, name ∉ p.tracker.names →
      (∀ detail, p.complete name detail = p) ∧ ∀ error, p.fail name error = p) ∧
    ∀ steps, (Step.runAll p steps).progress = p.moveAll (Step.movesAll p steps) ∧
      ∀ before after, Step.movesAll p steps = before ++ after → (p.moveAll before).Reachable := by
  refine ⟨hp.tracks, fun name => (hp.tracks name).isSome_iff,
    fun _ name hm => (move_follows hm).appends (hp.tracks name), fun name hno => ⟨fun _ => ?_, fun _ => ?_⟩,
    fun steps => ⟨Step.runAll_eq_moveAll p steps, fun before _ _ => hp.moveAll before⟩⟩
  · exact settle_unknown (hp.tracks name) hno _
  · exact settle_unknown (hp.tracks name) hno _

theorem records_append_only_twice :
    let p := (Progress.start ⟨.whole 1, .whole 1⟩ [.observe]).moveAll [.begin ['a'], .begin ['b'], .begin ['a']]
    p.Reachable ∧ p.tracker.live? ['a'] = some 2 ∧ LastAt p.tracker.names ['a'] 2 ∧
      p.tracker.Appends ['a'] (p.complete ['a'] []).tracker.records ∧
        ['c'] ∉ p.tracker.names ∧ p.complete ['c'] [] = p := by
  intro p
  have hp : p.Reachable := (Reachable.start _ _).moveAll _
  have hlive : p.tracker.live? ['a'] = some 2 := by decide
  have hno : ['c'] ∉ p.tracker.names := by decide
  obtain ⟨hlast, -, happends, hunknown, -⟩ := records_append_only hp
  exact ⟨hp, hlive, (hlast _ _).mp hlive, happends (.complete ['a'] []) _ rfl, hno, (hunknown _ hno).1 _⟩

end Progress

end PackageInstaller
