import Mathlib.Data.List.Basic
import PackageInstaller.Progress

/-! What the listeners of a progress are told. Telling them leaves the records, the clock and the listeners
as they are, whatever a listener does with what it is told. -/

namespace PackageInstaller

/-- A record as all listeners are told of it, one after the other. -/
def tidings (listeners : List Listener) (r : PhaseRecord) : List Notice :=
  listeners.zipIdx.map fun told => ⟨told.2, told.1, r⟩

namespace Progress

/-- The records that the listener at a position was told of. -/
def heardBy (p : Progress) (position : Nat) : List PhaseRecord :=
  (p.heard.filter (·.position = position)).map (·.record)

variable {p : Progress} {r : PhaseRecord} {name : Text} {position : Nat}

lemma notifyOne_fields (r : PhaseRecord) (p : Progress) (listener : Listener) (position : Nat) :
    (notifyOne r p listener position).tracker = p.tracker ∧
      (notifyOne r p listener position).clock = p.clock ∧
      (notifyOne r p listener position).listeners = p.listeners ∧
      (notifyOne r p listener position).heard = p.heard ++ [⟨position, listener, r⟩] := by
  cases listener with
  | observe => exact ⟨rfl, rfl, rfl, rfl⟩
  | announce =>
    rw [notifyOne, announce]
    cases r.status <;> exact ⟨rfl, rfl, rfl, rfl⟩
  | broken => exact ⟨rfl, rfl, rfl, rfl⟩

lemma notifyAll_fields (r : PhaseRecord) (told : List (Listener × Nat)) (p : Progress) :
    let q := told.foldl (fun p e => notifyOne r p e.1 e.2) p
    q.tracker = p.tracker ∧ q.clock = p.clock ∧ q.listeners = p.listeners ∧
      q.heard = p.heard ++ told.map fun e => ⟨e.2, e.1, r⟩ := by
  induction told generalizing p with
  | nil => exact ⟨rfl, rfl, rfl, (List.append_nil _).symm⟩
  | cons e told ih =>
    obtain ⟨ht, hc, hl, hh⟩ := notifyOne_fields r p e.1 e.2
    obtain ⟨ht', hc', hl', hh'⟩ := ih (notifyOne r p e.1 e.2)
    refine ⟨ht'.trans ht, hc'.trans hc, hl'.trans hl, ?_⟩
    rw [List.foldl_cons, hh', hh, List.append_assoc]
    rfl

lemma notify_fields (p : Progress) (r : PhaseRecord) :
    (p.notify r).tracker = p.tracker ∧ (p.notify r).clock = p.clock ∧
      (p.notify r).listeners = p.listeners ∧ (p.notify r).heard = p.heard ++ tidings p.listeners r :=
  notifyAll_fields r p.listeners.zipIdx p

@[simp] lemma notify_tracker (p : Progress) (r : PhaseRecord) : (p.notify r).tracker = p.tracker :=
  (notify_fields p r).1

@[simp] lemma notify_clock (p : Progress) (r : PhaseRecord) : (p.notify r).clock = p.clock :=
  (notify_fields p r).2.1

@[simp] lemma notify_listeners (p : Progress) (r : PhaseRecord) : (p.notify r).listeners = p.listeners :=
  (notify_fields p r).2.2.1

@[simp] lemma notify_heard (p : Progress) (r : PhaseRecord) :
    (p.notify r).heard = p.heard ++ tidings p.listeners r :=
  (notify_fields p r).2.2.2

lemma begin_tracker (p : Progress) (name : Text) :
    (p.begin name).tracker = p.tracker.add (PhaseRecord.begin name p.clock.now) := notify_tracker _ _

lemma skip_tracker (p : Progress) (name reason : Text) :
    (p.skip name reason).tracker = p.tracker.add (PhaseRecord.skip name reason) := notify_tracker _ _

lemma filter_zipIdx {α : Type} (l : List α) (start position : Nat) (h : start ≤ position)
    (hl : position < start + l.length) :
    ∃ a, (l.zipIdx start).filter (fun e => e.2 = position) = [(a, position)] := by
  induction l generalizing start with
  | nil =>
    simp only [List.length_nil] at hl
    omega
  | cons a l ih =>
    rw [List.zipIdx_cons, List.filter_cons]
    by_cases heq : start = position
    · subst heq
      have hnone : (l.zipIdx (start + 1)).filter (fun e => e.2 = start) = [] := by
        refine List.filter_eq_nil_iff.mpr fun e he => ?_
        have := List.le_snd_of_mem_zipIdx he
        simp only [decide_eq_true_eq]
        omega
      exact ⟨a, by simp [hnone]⟩
    · obtain ⟨b, hb⟩ := ih (start + 1) (by omega) (by simp only [List.length_cons] at hl; omega)
      exact ⟨b, by simpa [heq] using hb⟩

lemma heardBy_notify (p : Progress) (r : PhaseRecord) (h : position < p.listeners.length) :
    (p.notify r).heardBy position = p.heardBy position ++ [r] := by
  obtain ⟨listener, hl⟩ := filter_zipIdx p.listeners 0 position (Nat.zero_le _) (by omega)
  rw [heardBy, notify_heard, List.filter_append, List.map_append, tidings, List.filter_map, List.map_map]
  congr 1
  change ((p.listeners.zipIdx.filter fun e => e.2 = position).map fun _ => r) = [r]
  rw [hl]
  rfl

lemma settle_cases (p : Progress) (name : Text) (f : PhaseRecord → Number → PhaseRecord) :
    (p.settle name f = p ∧ ∀ i, p.tracker.live? name = some i → p.tracker.records[i]? = none) ∨
      ∃ i r, p.tracker.live? name = some i ∧ p.tracker.records[i]? = some r ∧
        p.settle name f =
          { p.advance with tracker := p.tracker.change i fun _ => f r p.clock.now }.notify
            (f r p.clock.now) := by
  rw [settle]
  cases hl : p.tracker.live? name with
  | none => exact .inl ⟨rfl, by simp⟩
  | some i =>
    simp only
    cases hr : p.tracker.records[i]? with
    | none =>
      refine .inl ⟨rfl, fun j hj => ?_⟩
      rw [← Option.some.inj hj, hr]
    | some r => exact .inr ⟨i, r, rfl, hr, rfl⟩

end Progress

end PackageInstaller
