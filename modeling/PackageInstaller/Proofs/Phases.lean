import PackageInstaller.Proofs.Records

/-! How a phase is left. What its body began under the same name takes its place: the last record of the name
is completed or failed, which is the record of the phase only if its body added none of that name. -/

namespace PackageInstaller

/-- How a record stands once its phase is left, with the detail that was left on it, or with a failure. -/
def PhaseRecord.Settled (r : PhaseRecord) (detail : Text) : Option Text → Prop
  | none => r.status = .completed ∧ r.ended.isSome ∧ r.detail = detail
  | some error => r.status = .failed ∧ r.error = some error

namespace Progress

open Tracker

variable {p : Progress} {name : Text} {i : Nat} {r : PhaseRecord}

lemma settle_live (hlive : p.tracker.live? name = some i) (hr : p.tracker.records[i]? = some r)
    (f : PhaseRecord → Number → PhaseRecord) : p.settle name f =
      { p.advance with tracker := p.tracker.change i fun _ => f r p.clock.now }.notify (f r p.clock.now) := by
  rw [settle, hlive]
  simp only [hr]

lemma leave_live (hlive : p.tracker.live? name = some i) (hr : p.tracker.records[i]? = some r) (position : Nat)
    (failure : Option Text) : ∃ r', p.leave name position failure =
      { p.advance with tracker := p.tracker.change i fun _ => r' }.notify r' ∧
        r'.name = r.name ∧ r'.started = r.started ∧ r'.Settled (p.tracker.detailAt position) failure := by
  cases failure with
  | none =>
    refine ⟨_, settle_live hlive hr fun r now => r.complete now (p.tracker.detailAt position), ?_⟩
    exact ⟨rfl, rfl, rfl, rfl, rfl⟩
  | some error =>
    refine ⟨_, settle_live hlive hr fun r now => r.fail now error, ?_⟩
    exact ⟨rfl, rfl, rfl, rfl⟩

end Progress

namespace Step

open Progress Tracker

lemma within_eq_moveAll (p : Progress) (name : Text) (body : List Step) (detail failure : Option Text) :
    ∃ moves, (within p name body detail failure).progress = (p.begin name).moveAll moves :=
  ⟨_, by rw [← moveAll_noting, runAll_eq_moveAll, ← moveAll_append]⟩

/-- Leaving a phase completes or fails one record, the last of its name, as the body ended, and the failure of
the body goes on. The record is that of the phase exactly if its body added no other one of the name. -/
theorem phase_settles_last (p : Progress) (name : Text) (body : List Step) (detail failure : Option Text) :
    let b := within p name body detail failure
    let left := run p (.phase name body detail failure)
    let yielded := p.tracker.records.length
    left.failure = b.failure ∧ b.progress.tracker.names[yielded]? = some name ∧
      ∃ i r, LastAt b.progress.tracker.names name i ∧ yielded ≤ i ∧
        left.progress.tracker.records = b.progress.tracker.records.set i r ∧ r.name = name ∧
        r.Settled (b.progress.tracker.detailAt yielded) b.failure ∧
        (i = yielded ↔ name ∉ b.progress.tracker.names.drop (yielded + 1)) := by
  intro b left yielded
  obtain ⟨moves, hb⟩ := within_eq_moveAll p name body detail failure
  have hbegin := begin_tracker p name
  have htracks : b.progress.tracker.Tracks name := by
    rw [hb]
    refine tracks_moveAll ?_ moves
    rw [hbegin]
    exact tracks_add_self _ _
  have hyielded : b.progress.tracker.names[yielded]? = some name := by
    obtain ⟨rest, hrest⟩ := names_moveAll (p.begin name) moves
    rw [hb, ← hrest, hbegin, names_add, List.append_assoc, List.getElem?_append_right (Nat.le_of_eq (length_names _))]
    simp [length_names]
  obtain ⟨i, hlast⟩ := exists_lastAt (List.mem_of_getElem? hyielded)
  have hlive := (htracks i).mpr hlast
  obtain ⟨r, hr, hname⟩ := htracks.record hlive
  have hleft : left = ⟨b.progress.leave name yielded b.failure, b.failure⟩ := run_phase
  obtain ⟨r', hleave, hname', -, hsettled⟩ := leave_live hlive hr yielded b.failure
  have hset : left.progress.tracker.records = b.progress.tracker.records.set i r' := by
    rw [hleft, hleave, notify_tracker, records_change]
  have hle : yielded ≤ i := Nat.le_of_not_lt fun hlt => hlast.2 _ hlt hyielded
  refine ⟨by rw [hleft], hyielded, i, r', hlast, hle, hset, hname'.trans hname, hsettled, ?_⟩
  -- a later record of the name would be the last one
  constructor
  · rintro rfl hmem
    obtain ⟨j, hj⟩ := List.mem_iff_getElem?.mp hmem
    rw [List.getElem?_drop] at hj
    exact hlast.2 _ (by omega) hj
  · intro hno
    by_contra hne
    refine hno (List.mem_iff_getElem?.mpr ⟨i - (yielded + 1), ?_⟩)
    rw [List.getElem?_drop, show yielded + 1 + (i - (yielded + 1)) = i by omega]
    exact hlast.1

/-- A phase within a phase of the same name leaves the outer one running. -/
theorem not_phase_settles_yielded : ¬∀ (p : Progress) (name : Text) (body : List Step) (detail failure : Option Text),
    p.Reachable →
    let b := within p name body detail failure
    let left := run p (.phase name body detail failure)
    let yielded := p.tracker.records.length
    left.failure = b.failure ∧
      (∃ r, left.progress.tracker.records[yielded]? = some r ∧
        r.Settled (b.progress.tracker.detailAt yielded) b.failure) ∧
      ∀ j r, j ≠ yielded → b.progress.tracker.records[j]? = some r →
        ∃ r', left.progress.tracker.records[j]? = some r' ∧ r'.status = r.status ∧ r'.detail = r.detail ∧
          r'.error = r.error := by
  intro h
  obtain ⟨-, ⟨r, hr, hcompleted, -⟩, -⟩ := h (Progress.start ⟨.whole 1, .whole 1⟩ []) ['s']
    [.phase ['s'] [] (some ['i']) none] (some ['o']) none (.start _ _)
  have hrunning : (run (Progress.start ⟨.whole 1, .whole 1⟩ []) (.phase ['s'] [.phase ['s'] [] (some ['i']) none]
      (some ['o']) none)).progress.tracker.records[0]?.map (·.status) = some .running := by decide
  change _[0]? = some r at hr
  rw [hr, Option.map_some, Option.some.injEq, hcompleted] at hrunning
  simp at hrunning

end Step

end PackageInstaller
