import PackageInstaller.Proofs.Leavings
import PackageInstaller.Proofs.Phases

/-! The phases of an installation: their records, and what a listener is told of them. -/

namespace PackageInstaller

/-- A progress without its clock, and without what is printed and logged. -/
structure Chronicle where
  tracker : Tracker
  listeners : List Listener
  heard : List Notice

def Progress.chronicle (p : Progress) : Chronicle := ⟨p.tracker, p.listeners, p.heard⟩

/-- The action leaves the records as they are, and no listener hears of it. -/
def Unseen {α : Type} (x : Action α) : Prop := ∀ h : Host, (x h).2.chronicle = h.chronicle

/-- At most, a detail is left on the record at a position. -/
def Noted (position : Nat) (p q : Progress) : Prop :=
  q.chronicle = p.chronicle ∨ ∃ detail, q.chronicle = (p.setDetail position detail).chronicle

def Noting {α : Type} (position : Nat) (x : Action α) : Prop :=
  ∀ h : Host, Noted position h.toProgress (x h).2.toProgress

/-- What a listener is told of a record: that it is running and then how it ended, unless it was skipped. -/
def PhaseRecord.life (r : PhaseRecord) : List PhaseRecord :=
  if r.status = .skipped then [r] else [⟨r.name, .running, r.started, none, [], none⟩, r]

/-- These records are new, and each listener was told of the life of each, one after the other. -/
structure Recorded (rs : List PhaseRecord) (p q : Progress) : Prop where
  records : q.tracker.records = p.tracker.records ++ rs
  listeners : q.listeners = p.listeners
  heard : ∀ position < p.listeners.length, q.heardBy position = p.heardBy position ++ rs.flatMap PhaseRecord.life

def PhaseRecord.Completed (r : PhaseRecord) : Prop := r.status = .completed

def PhaseRecord.FailedWith (e : Failure) (r : PhaseRecord) : Prop :=
  r.status = .failed ∧ r.error = some e.message.toList

def PhaseRecord.WentWell (r : PhaseRecord) : Prop := r.status = .completed ∨ r.status = .skipped

/-- The phases of these names are new, all completed but the last. -/
def Course (names : List Text) (last : PhaseRecord → Prop) (h h' : Host) : Prop :=
  ∃ rs, Recorded rs h.toProgress h'.toProgress ∧ rs.map (·.name) = names ∧
    (∀ r ∈ rs.dropLast, r.Completed) ∧ ∀ r ∈ rs.getLast?, last r

variable {α β : Type} {x : Action α} {f : α → Action β} {position : Nat} {h h₁ h' : Host}

lemma Action.bind_eq_error {e : Failure} : (x >>= f) h = (.error e, h') ↔
    x h = (.error e, h') ∨ ∃ a h₁, x h = (.ok a, h₁) ∧ f a h₁ = (.error e, h') := by
  rw [bind_run]
  rcases x h with ⟨e | a, h₁⟩ <;> simp

lemma Action.fails_first {e : Failure} (hx : x h = (.error e, h')) : (x >>= f) h = (.error e, h') :=
  bind_eq_error.mpr (.inl hx)

lemma Action.fails_later {e : Failure} {a : α} (hx : x h = (.ok a, h₁)) (hf : f a h₁ = (.error e, h')) :
    (x >>= f) h = (.error e, h') :=
  bind_eq_error.mpr (.inr ⟨a, h₁, hx, hf⟩)

namespace Unseen

lemma pure (a : α) : Unseen (Pure.pure a : Action α) := fun _ => rfl

lemma fail (e : Failure) : Unseen (Action.fail e : Action α) := fun _ => rfl

lemma tell (events : List Event) : Unseen (Action.onProgress (·.tell events)) := fun _ => rfl

lemma ofAttempt {ε : Type} (g : ε → Failure) (attempt : Attempt ε α) : Unseen (Action.ofAttempt g attempt) :=
  fun _ => rfl

lemma bind (hx : Unseen x) (hf : ∀ a, Unseen (f a)) : Unseen (x >>= f) := by
  intro h
  have hh := hx h
  rw [Action.bind_run]
  rcases hr : x h with ⟨e | a, h₁⟩
  · rw [hr] at hh
    exact hh
  · rw [hr] at hh
    exact (hf a h₁).trans hh

lemma read (path : Path) : Unseen (ManifestFile.read path) := by
  intro h
  rw [ManifestFile.read]
  split_ifs <;> rfl

lemma descend (scanning : Scanning) (begun : Bool) : Unseen (Action.descend scanning begun) := by
  intro h
  rw [Action.descend]
  split <;> rfl

lemma inspect (g : Host → α) : Unseen (Action.inspect g) := fun _ => rfl

lemma write (halves : List Char) (path : Path) (t : Text) : Unseen (ManifestFile.writeWith halves path t) := by
  intro h
  rw [ManifestFile.writeWith]
  split_ifs
  · simp only
    split
    · rfl
    · split <;> rfl
  · rfl

lemma readPins (path : Path) (missingOk : Bool) : Unseen (Lockfile.readPins path missingOk) := fun _ => rfl

lemma packageNameFor (path : Path) (url : Text) : Unseen (Lockfile.packageNameFor path url) := fun _ => rfl

lemma clean (toolchain : Toolchain) : Unseen toolchain.clean := by
  intro h
  rw [Toolchain.clean]
  split
  · rfl
  · rfl
  · split
    · rfl
    · rfl
    · split <;> rfl

lemma run (toolchain : Toolchain) (subcommand : Subcommand) : Unseen (toolchain.run subcommand) := by
  intro h
  rw [Toolchain.run]
  simp only
  split <;> rfl

lemma interactive (names : List Text) : Unseen (Selection.interactive names) := by
  intro h
  rw [Selection.interactive]
  split <;> rfl

variable (project : Project)

lemma readFiles : Unseen project.readFiles :=
  (read _).bind fun _ => (readPins _ _).bind fun _ => pure _

lemma resolve : Unseen project.resolve :=
  (clean _).bind fun _ => (run _ _).bind fun _ => run _ _

lemma wireTargets (prepared : Manifest.Prepared) (identifier : Text) (halves : List Char) :
    Unseen (project.wireTargets prepared identifier halves) := by
  refine (descend _ _).bind fun _ => (tell _).bind fun _ => ?_
  split
  · exact (write _ _ _).bind fun _ => pure _
  · exact (write _ _ _).bind fun _ => fail _
  · exact fail _

lemma prepare {project : Project} (hselect : ∀ names, Unseen (project.select names)) (t : Text)
    (reference : Reference) : Unseen (project.prepare t reference) :=
  (descend _ _).bind fun _ => (ofAttempt _ _).bind fun names => (hselect names).bind fun _ =>
    (descend _ _).bind fun _ => ofAttempt _ _

end Unseen

lemma Noted.of_chronicle {p p' q : Progress} (hq : Noted position p' q) (h : p'.chronicle = p.chronicle) :
    Noted position p q := by
  obtain ⟨ht, hl, hh⟩ := Chronicle.mk.inj h
  rcases hq with hq | ⟨detail, hq⟩
  · exact .inl (hq.trans h)
  · exact .inr ⟨detail, by simpa only [Progress.chronicle, Progress.setDetail, ht, hl, hh] using hq⟩

namespace Noting

lemma of_unseen (hx : Unseen x) : Noting position x := fun h => .inl (hx h)

lemma bind (hx : Unseen x) (hf : ∀ a, Noting position (f a)) : Noting position (x >>= f) := by
  intro h
  have hh := hx h
  rw [Action.bind_run]
  rcases hr : x h with ⟨e | a, h₁⟩
  · rw [hr] at hh
    exact .inl hh
  · rw [hr] at hh
    exact (hf a h₁).of_chronicle hh

lemma setDetail (detail : Text) (a : α) : Noting position (Project.setDetail position detail >>= fun _ => pure a) :=
  fun _ => .inr ⟨detail, rfl⟩

lemma prepareIn {project : Project} (hselect : ∀ names, Unseen (project.select names)) (t : Text)
    (reference : Reference) (position : Nat) : Noting position (project.prepareIn t reference position) :=
  bind (.prepare hselect t reference) fun _ => setDetail _ _

lemma wireIn (project : Project) (prepared : Manifest.Prepared) (url : Text) (position : Nat) :
    Noting position (project.wireIn prepared url position) :=
  bind (.packageNameFor _ _) fun _ => bind (.inspect _) fun _ => bind (.wireTargets _ _ _ _) fun _ => setDetail _ _

end Noting

namespace Recorded

variable {rs rs' : List PhaseRecord} {p q p' : Progress} {name : Text}

lemma refl (p : Progress) : Recorded [] p p :=
  ⟨(List.append_nil _).symm, rfl, fun _ _ => (List.append_nil _).symm⟩

lemma trans (hr : Recorded rs p q) (hr' : Recorded rs' q p') : Recorded (rs ++ rs') p p' := by
  refine ⟨?_, hr'.listeners.trans hr.listeners, fun position hl => ?_⟩
  · rw [hr'.records, hr.records, List.append_assoc]
  · rw [hr'.heard position (hr.listeners ▸ hl), hr.heard position hl, List.append_assoc, List.flatMap_append]

lemma of_chronicle (hq : q.chronicle = p.chronicle) : Recorded [] p q := by
  obtain ⟨ht, hl, hheard⟩ := Chronicle.mk.inj hq
  refine ⟨by rw [ht, List.append_nil], hl, fun position _ => ?_⟩
  rw [List.flatMap_nil, List.append_nil, Progress.heardBy, Progress.heardBy, hheard]

lemma skip (p : Progress) (name reason : Text) : Recorded [PhaseRecord.skip name reason] p (p.skip name reason) := by
  refine ⟨?_, ?_, fun position hl => ?_⟩
  · exact congrArg Tracker.records (Progress.skip_tracker _ _ _)
  · exact Progress.notify_listeners _ _
  · exact Progress.heardBy_notify { p with tracker := p.tracker.add _ } _ hl

lemma modify_concat (l : List α) (a : α) (g : α → α) : (l ++ [a]).modify l.length g = l ++ [g a] := by
  induction l with
  | nil => rfl
  | cons b l ih => simp [ih]

lemma setDetail_add (t : Tracker) (r : PhaseRecord) (detail : Text) :
    (t.add r).setDetail t.records.length detail = t.add { r with detail := detail } :=
  congrArg (Tracker.mk · _) (modify_concat _ _ _)

lemma begun (hq : Noted p.tracker.records.length (p.begin name) q) :
    ∃ detail, q.tracker = p.tracker.add ⟨name, .running, some p.clock.now, none, detail, none⟩ ∧
      q.listeners = p.listeners ∧ ∀ position < p.listeners.length,
        q.heardBy position = p.heardBy position ++ [PhaseRecord.begin name p.clock.now] := by
  have htracker := Progress.begin_tracker p name
  obtain ⟨detail, ht, hl, hh⟩ : ∃ detail,
      q.tracker = p.tracker.add ⟨name, .running, some p.clock.now, none, detail, none⟩ ∧
        q.listeners = (p.begin name).listeners ∧ q.heard = (p.begin name).heard := by
    rcases hq with hq | ⟨detail, hq⟩ <;> obtain ⟨ht, hl, hh⟩ := Chronicle.mk.inj hq
    · exact ⟨[], ht.trans htracker, hl, hh⟩
    · refine ⟨detail, ?_, hl, hh⟩
      rw [ht, Progress.setDetail, htracker]
      exact setDetail_add _ _ _
  refine ⟨detail, ht, hl.trans (Progress.notify_listeners _ _), fun position hpos => ?_⟩
  rw [Progress.heardBy, hh]
  exact Progress.heardBy_notify { p.advance with tracker := p.tracker.add _ } _ hpos

lemma leave (hq : Noted p.tracker.records.length (p.begin name) q) (failure : Option Text) :
    ∃ record detail, Recorded [record] p (q.leave name p.tracker.records.length failure) ∧ record.name = name ∧
      record.Settled detail failure := by
  obtain ⟨detail, ht, hlisteners, hheard⟩ := begun hq
  have hrecords := congrArg Tracker.records ht
  have hlive : q.tracker.live? name = some p.tracker.records.length := by
    rw [ht]
    exact Tracker.live?_add_self _ _
  have hr : q.tracker.records[p.tracker.records.length]? =
      some ⟨name, .running, some p.clock.now, none, detail, none⟩ := by
    rw [hrecords]
    exact List.getElem?_concat_length
  obtain ⟨record, hleave, hname, hstarted, hsettled⟩ :=
    Progress.leave_live hlive hr p.tracker.records.length failure
  have hlife : record.life = [PhaseRecord.begin name p.clock.now, record] := by
    rw [PhaseRecord.life, hname, hstarted, if_neg]
    · rfl
    · cases failure <;> rw [hsettled.1] <;> simp
  refine ⟨record, _, ⟨?_, ?_, fun position hl => ?_⟩, hname, hsettled⟩
  · rw [hleave, Progress.notify_tracker, Tracker.records_change, hrecords]
    simp [Tracker.add]
  · rw [hleave, Progress.notify_listeners]
    exact hlisteners
  · have hl' : position < q.listeners.length := hlisteners ▸ hl
    rw [hleave, Progress.heardBy_notify { q.advance with tracker := _ } _ hl', List.flatMap_singleton, hlife]
    change q.heardBy position ++ [record] = _
    rw [hheard position hl, List.append_assoc]
    rfl

end Recorded

def PhaseRecord.Ends (r : PhaseRecord) : Except Failure α → Prop
  | .ok _ => r.Completed
  | .error e => r.FailedWith e

lemma Action.phase_recorded {name : Text} {body : Nat → Action α} {r : Except Failure α}
    (hbody : ∀ position, Noting position (body position)) (hp : phase name body h = (r, h')) :
    ∃ record : PhaseRecord, Recorded [record] h.toProgress h'.toProgress ∧ record.name = name ∧ record.Ends r := by
  rw [phase] at hp
  simp only [Progress.enter] at hp
  have hnoted := hbody h.tracker.records.length { h with toProgress := h.begin name }
  rcases hb : body h.tracker.records.length { h with toProgress := h.begin name } with ⟨outcome, after⟩
  rw [hb] at hp hnoted
  obtain ⟨rfl, rfl⟩ := Prod.mk.inj hp
  cases outcome with
  | ok a =>
    obtain ⟨record, detail, hr, hname, hsettled⟩ := Recorded.leave hnoted none
    exact ⟨record, hr, hname, hsettled.1⟩
  | error e =>
    obtain ⟨record, detail, hr, hname, hsettled⟩ := Recorded.leave hnoted (some e.message.toList)
    exact ⟨record, hr, hname, hsettled⟩

lemma forall_mem_of_dropLast {P : PhaseRecord → Prop} {rs : List PhaseRecord} (hrest : ∀ r ∈ rs.dropLast, P r)
    (hlast : ∀ r ∈ rs.getLast?, P r) : ∀ r ∈ rs, P r := by
  intro r hr
  cases hend : rs.getLast? with
  | none =>
    rw [List.getLast?_eq_none_iff.mp hend] at hr
    simp at hr
  | some s =>
    rw [← List.dropLast_append_getLast? s hend, List.mem_append, List.mem_singleton] at hr
    rcases hr with hr | rfl
    · exact hrest r hr
    · exact hlast _ hend

namespace Course

variable {names : List Text} {name : Text} {last : PhaseRecord → Prop} {body : Nat → Action α} {e : Failure}

lemma refl (h : Host) : Course [] PhaseRecord.Completed h h := ⟨[], .refl _, rfl, by simp, by simp⟩

lemma unseen (hc : Course names last h h₁) (hx : Unseen x) {r : Except Failure α} (hr : x h₁ = (r, h')) :
    Course names last h h' := by
  obtain ⟨rs, ht, hnames, hcompleted, hlast⟩ := hc
  have hh := hx h₁
  rw [hr] at hh
  exact ⟨rs, List.append_nil rs ▸ ht.trans (.of_chronicle hh), hnames, hcompleted, hlast⟩

lemma snoc (hc : Course names PhaseRecord.Completed h h₁) {record : PhaseRecord} (ht : Recorded [record] h₁.toProgress h'.toProgress)
    (hname : record.name = name) (hlast : last record) : Course (names ++ [name]) last h h' := by
  obtain ⟨rs, ht₁, hnames, hcompleted, hend⟩ := hc
  refine ⟨rs ++ [record], ht₁.trans ht, ?_, ?_, ?_⟩
  · rw [List.map_append, hnames, List.map_singleton, hname]
  · rw [List.dropLast_concat]
    exact forall_mem_of_dropLast hcompleted hend
  · rw [List.getLast?_concat]
    rintro r ⟨⟩
    exact hlast

lemma mono {last' : PhaseRecord → Prop} (hc : Course names last h h') (hlast : ∀ r, last r → last' r) :
    Course names last' h h' := by
  obtain ⟨rs, ht, hnames, hcompleted, hend⟩ := hc
  exact ⟨rs, ht, hnames, hcompleted, fun r hr => hlast r (hend r hr)⟩

lemma phase_ok (hc : Course names PhaseRecord.Completed h h₁) (hbody : ∀ position, Noting position (body position))
    {a : α} (hp : Action.phase name body h₁ = (.ok a, h')) :
    Course (names ++ [name]) PhaseRecord.Completed h h' := by
  obtain ⟨record, ht, hname, hends⟩ := Action.phase_recorded hbody hp
  exact hc.snoc ht hname hends

lemma phase_error (hc : Course names PhaseRecord.Completed h h₁)
    (hbody : ∀ position, Noting position (body position)) (hp : Action.phase name body h₁ = (.error e, h')) :
    Course (names ++ [name]) (PhaseRecord.FailedWith e) h h' := by
  obtain ⟨record, ht, hname, hends⟩ := Action.phase_recorded hbody hp
  exact hc.snoc ht hname hends

end Course

namespace Project

def phaseNames : List Text := [readPhase, targetsPhase, resolvePhase, wirePhase, buildPhase]

/-- Where a failure ends an installation: it leaves the phase of a name, or no phase, and then the declared
manifest is not written or the pins are not read at the end. -/
inductive StopsAt (project : Project) (reference : Reference) (h : Host) : Option Text → Failure → Host → Prop
  | read {e h'} (hr : Action.phase readPhase (fun _ => project.readFiles) h = (.error e, h')) :
    StopsAt project reference h (some readPhase) e h'
  | targets {t before h₁ e h'} (hr : Action.phase readPhase (fun _ => project.readFiles) h = (.ok (t, before), h₁))
    (ht : Action.phase targetsPhase (project.prepareIn t reference) h₁ = (.error e, h')) :
    StopsAt project reference h (some targetsPhase) e h'
  | declared {d h₁ e h'} (hd : project.declare reference h = (.ok d, h₁))
    (hm : ManifestFile.write project.manifest d.2.manifest h₁ = (.error e, h')) :
    StopsAt project reference h none e h'
  | resolve {d h₁ h₂ e h'} (hd : project.declare reference h = (.ok d, h₁))
    (hm : ManifestFile.write project.manifest d.2.manifest h₁ = (.ok (), h₂))
    (hr : Action.phase resolvePhase (fun _ => project.resolve) h₂ = (.error e, h')) :
    StopsAt project reference h (some resolvePhase) e h'
  | wire {d h₁ h₂ h₃ e h'} (hd : project.declare reference h = (.ok d, h₁))
    (hm : ManifestFile.write project.manifest d.2.manifest h₁ = (.ok (), h₂))
    (hr : Action.phase resolvePhase (fun _ => project.resolve) h₂ = (.ok (), h₃))
    (hw : Action.phase wirePhase (project.wireIn d.2 reference.url) h₃ = (.error e, h')) :
    StopsAt project reference h (some wirePhase) e h'
  | build {d w h₁ h₂ e h'} (hd : project.declare reference h = (.ok d, h₁))
    (hw : project.resolveAndWire reference d.2 h₁ = (.ok w, h₂)) (hbuild : project.build = true)
    (hb : Action.phase buildPhase (fun _ => project.toolchain.run .build) h₂ = (.error e, h')) :
    StopsAt project reference h (some buildPhase) e h'
  | counted {d w h₁ h₂ h₃ e h'} (hd : project.declare reference h = (.ok d, h₁))
    (hw : project.resolveAndWire reference d.2 h₁ = (.ok w, h₂)) (hb : project.buildOrSkip h₂ = (.ok (), h₃))
    (hp : Lockfile.readPins project.lockfile false h₃ = (.error e, h')) :
    StopsAt project reference h none e h'

def Built (project : Project) (r : PhaseRecord) : Prop :=
  r.status = if project.build then .completed else .skipped

variable {project : Project} {reference : Reference} {e : Failure} {d : List Lockfile.Pin × Manifest.Prepared}

lemma Built.wentWell {r : PhaseRecord} (h : project.Built r) : r.WentWell := by
  rw [Built] at h
  split_ifs at h
  · exact .inl h
  · exact .inr h

lemma buildOrSkip_of_build (hbuild : project.build = true) :
    project.buildOrSkip = Action.phase buildPhase fun _ => project.toolchain.run .build := if_pos hbuild

lemma buildOrSkip_of_skip (hbuild : project.build = false) :
    project.buildOrSkip = Action.onProgress (·.skip buildPhase "disabled".toList) := if_neg (by simp [hbuild])

lemma declare_course (hselect : ∀ names, Unseen (project.select names))
    (hd : project.declare reference h = (.ok d, h')) : Course [readPhase, targetsPhase] PhaseRecord.Completed h h' := by
  obtain ⟨⟨t, before⟩, h₁, hr, hd⟩ := Action.bind_eq_ok.mp hd
  obtain ⟨prepared, h₂, ht, hd⟩ := Action.bind_eq_ok.mp hd
  obtain ⟨-, rfl⟩ := Prod.mk.inj hd
  have hread := (Course.refl h).phase_ok (fun _ => .of_unseen (.readFiles project)) hr
  exact hread.phase_ok (Noting.prepareIn hselect t reference) ht

lemma resolve_course {names : List Text} (hc : Course names PhaseRecord.Completed h h₁)
    (hr : Action.phase resolvePhase (fun _ => project.resolve) h₁ = (.ok (), h')) :
    Course (names ++ [resolvePhase]) PhaseRecord.Completed h h' :=
  hc.phase_ok (fun _ => .of_unseen (.resolve project)) hr

lemma resolveAndWire_course {names : List Text} {w : Text × Text} (hc : Course names PhaseRecord.Completed h h₁)
    (hw : project.resolveAndWire reference d.2 h₁ = (.ok w, h')) :
    Course (names ++ [resolvePhase, wirePhase]) PhaseRecord.Completed h h' := by
  obtain ⟨⟨⟩, h₂, hm, hw⟩ := Action.bind_eq_ok.mp hw
  obtain ⟨⟨⟩, h₃, hr, hw⟩ := Action.bind_eq_ok.mp hw
  have hresolved := resolve_course (hc.unseen (.write _ _ _) hm) hr
  simpa using hresolved.phase_ok (Noting.wireIn project d.2 reference.url) hw

lemma buildOrSkip_course {names : List Text} (hc : Course names PhaseRecord.Completed h h₁)
    (hb : project.buildOrSkip h₁ = (.ok (), h')) : Course (names ++ [buildPhase]) project.Built h h' := by
  cases hbuild : project.build with
  | true =>
    rw [buildOrSkip_of_build hbuild] at hb
    obtain ⟨record, ht, hname, hends⟩ := Action.phase_recorded (fun _ => .of_unseen (.run project.toolchain .build)) hb
    refine hc.snoc ht hname ?_
    rw [Built, if_pos hbuild]
    exact hends
  | false =>
    rw [buildOrSkip_of_skip hbuild] at hb
    obtain ⟨-, rfl⟩ := Prod.mk.inj hb
    refine hc.snoc (.skip _ _ _) rfl ?_
    rw [Built, if_neg (by simp [hbuild])]
    rfl

lemma StopsAt.failed {name : Text} (hselect : ∀ names, Unseen (project.select names))
    (hs : StopsAt project reference h (some name) e h') :
    ∃ before, before ++ [name] <+: phaseNames ∧ Course (before ++ [name]) (PhaseRecord.FailedWith e) h h' := by
  cases hs with
  | read hr =>
    exact ⟨[], ⟨_, rfl⟩, (Course.refl h).phase_error (fun _ => .of_unseen (.readFiles project)) hr⟩
  | targets hr ht =>
    have hread := (Course.refl h).phase_ok (fun _ => .of_unseen (.readFiles project)) hr
    exact ⟨_, ⟨_, rfl⟩, hread.phase_error (Noting.prepareIn hselect _ reference) ht⟩
  | resolve hd hm hr =>
    have hdeclared := (declare_course hselect hd).unseen (.write _ _ _) hm
    exact ⟨_, ⟨_, rfl⟩, hdeclared.phase_error (fun _ => .of_unseen (.resolve project)) hr⟩
  | wire hd hm hr hw =>
    have hresolved := resolve_course ((declare_course hselect hd).unseen (.write _ _ _) hm) hr
    exact ⟨_, ⟨_, rfl⟩, hresolved.phase_error (Noting.wireIn project _ reference.url) hw⟩
  | build hd hw _ hb =>
    have hwired := resolveAndWire_course (declare_course hselect hd) hw
    exact ⟨_, ⟨_, rfl⟩, hwired.phase_error (fun _ => .of_unseen (.run project.toolchain .build)) hb⟩

lemma StopsAt.between (hselect : ∀ names, Unseen (project.select names)) (hs : StopsAt project reference h none e h') :
    ∃ names, names <+: phaseNames ∧ Course names PhaseRecord.WentWell h h' := by
  cases hs with
  | declared hd hm =>
    have hdeclared := (declare_course hselect hd).unseen (.write _ _ _) hm
    exact ⟨_, ⟨_, rfl⟩, hdeclared.mono fun _ hr => .inl hr⟩
  | counted hd hw hb hp =>
    have hbuilt := buildOrSkip_course (resolveAndWire_course (declare_course hselect hd) hw) hb
    exact ⟨_, ⟨_, rfl⟩, (hbuilt.unseen (.readPins _ _) hp).mono fun _ => Built.wentWell⟩

lemma install_course (hselect : ∀ names, Unseen (project.select names)) {installed : Installed}
    (hi : project.install reference h = (.ok installed, h')) : Course phaseNames project.Built h h' := by
  rw [install_eq] at hi
  obtain ⟨d, h₁, hd, hi⟩ := Action.bind_eq_ok.mp hi
  obtain ⟨w, h₂, hw, hi⟩ := Action.bind_eq_ok.mp hi
  obtain ⟨⟨⟩, h₃, hb, hi⟩ := Action.bind_eq_ok.mp hi
  have hbuilt := buildOrSkip_course (resolveAndWire_course (declare_course hselect hd) hw) hb
  exact hbuilt.unseen ((Unseen.readPins _ _).bind fun _ => (Unseen.tell _).bind fun _ => .pure _) hi

lemma install_eq_error : project.install reference h = (.error e, h') ↔ ∃ name, StopsAt project reference h name e h' := by
  rw [install_eq]
  constructor
  · intro hi
    rcases Action.bind_eq_error.mp hi with hd | ⟨d, h₁, hd, hi⟩
    · rcases Action.bind_eq_error.mp hd with hr | ⟨⟨t, before⟩, h₁, hr, hd⟩
      · exact ⟨_, .read hr⟩
      rcases Action.bind_eq_error.mp hd with ht | ⟨prepared, h₂, ht, hd⟩
      · exact ⟨_, .targets hr ht⟩
      · simp at hd
    rcases Action.bind_eq_error.mp hi with hw | ⟨w, h₂, hw, hi⟩
    · rcases Action.bind_eq_error.mp hw with hm | ⟨⟨⟩, h₂, hm, hw⟩
      · exact ⟨_, .declared hd hm⟩
      rcases Action.bind_eq_error.mp hw with hr | ⟨⟨⟩, h₃, hr, hw⟩
      · exact ⟨_, .resolve hd hm hr⟩
      · exact ⟨_, .wire hd hm hr hw⟩
    rcases Action.bind_eq_error.mp hi with hb | ⟨⟨⟩, h₃, hb, hi⟩
    · cases hbuild : project.build with
      | true =>
        rw [buildOrSkip_of_build hbuild] at hb
        exact ⟨_, .build hd hw hbuild hb⟩
      | false =>
        rw [buildOrSkip_of_skip hbuild] at hb
        simp [Action.onProgress] at hb
    rcases Action.bind_eq_error.mp hi with hp | ⟨after, h₄, hp, hi⟩
    · exact ⟨_, .counted hd hw hb hp⟩
    · rcases Action.bind_eq_error.mp hi with hno | ⟨⟨⟩, h₅, hl, hi⟩
      · simp [Action.logged, Action.onProgress] at hno
      · simp at hi
  · rintro ⟨name, hs⟩
    cases hs with
    | read hr => exact Action.fails_first (Action.fails_first hr)
    | targets hr ht => exact Action.fails_first (Action.fails_later hr (Action.fails_first ht))
    | declared hd hm => exact Action.fails_later hd (Action.fails_first (Action.fails_first hm))
    | resolve hd hm hr => exact Action.fails_later hd (Action.fails_first (Action.fails_later hm (Action.fails_first hr)))
    | wire hd hm hr hw => exact Action.fails_later hd (Action.fails_first (Action.fails_later hm (Action.fails_later hr hw)))
    | build hd hw hbuild hb =>
      rw [← buildOrSkip_of_build hbuild] at hb
      exact Action.fails_later hd (Action.fails_later hw (Action.fails_first hb))
    | counted hd hw hb hp => exact Action.fails_later hd (Action.fails_later hw (Action.fails_later hb (Action.fails_first hp)))

/-- An installation with a tracker that is new has its phases in their order, all completed but the last. It
ends well with five of them, the last as it was to build or not. A failure that leaves a phase is the error of
its record, which is the last; one from between the phases leaves no failed record. Each listener was told of
each record that it is running and then how it ended, and of one that was skipped only that. -/
theorem install_phases (hselect : ∀ names, Unseen (project.select names)) (hfresh : h.tracker = Tracker.empty)
    {outcome : Except Failure Installed} (hi : project.install reference h = (outcome, h')) :
    let records := h'.tracker.records
    records.map (·.name) <+: phaseNames ∧ (∀ r ∈ records.dropLast, r.status = .completed) ∧
    (∀ installed, outcome = .ok installed → records.length = 5 ∧
      ∃ r, records.getLast? = some r ∧ r.status = if project.build then .completed else .skipped) ∧
    (∀ e, outcome = .error e ↔ ∃ name, StopsAt project reference h name e h') ∧
    (∀ name e, StopsAt project reference h (some name) e h' → ∃ r, records.getLast? = some r ∧ r.name = name ∧
      r.status = .failed ∧ r.error = some e.message.toList) ∧
    (∀ e, StopsAt project reference h none e h' → ∀ r ∈ records, r.status = .completed ∨ r.status = .skipped) ∧
    h'.listeners = h.listeners ∧ ∀ position < h.listeners.length,
      h'.heardBy position = h.heardBy position ++ records.flatMap PhaseRecord.life := by
  intro records
  have hrecords : ∀ {rs}, Recorded rs h.toProgress h'.toProgress → records = rs := fun ht => by
    have := ht.records
    rwa [hfresh] at this
  have hends : ∀ e, outcome = .error e ↔ ∃ name, StopsAt project reference h name e h' := by
    intro e
    rw [← install_eq_error, hi]
    simp
  -- however it ends, there is one course of its phases
  obtain ⟨names, last, hnames, hcourse⟩ : ∃ names last, names <+: phaseNames ∧ Course names last h h' := by
    cases ho : outcome with
    | ok installed => exact ⟨_, _, List.prefix_rfl, install_course hselect (ho ▸ hi)⟩
    | error e =>
      obtain ⟨_ | name, hs⟩ := (hends e).mp ho
      · obtain ⟨names, hnames, hc⟩ := hs.between hselect
        exact ⟨_, _, hnames, hc⟩
      · obtain ⟨before, hnames, hc⟩ := hs.failed hselect
        exact ⟨_, _, hnames, hc⟩
  obtain ⟨rs, ht, rfl, hcompleted, -⟩ := hcourse
  obtain rfl := hrecords ht
  refine ⟨hnames, hcompleted, ?_, hends, ?_, ?_, ht.listeners, ht.heard⟩
  · rintro installed rfl
    obtain ⟨rs, ht, hall, -, hbuilt⟩ := install_course hselect hi
    obtain rfl := hrecords ht
    have hlength : records.length = 5 := by rw [← List.length_map (·.name), hall]; rfl
    obtain ⟨r, hr⟩ : ∃ r, records.getLast? = some r :=
      Option.isSome_iff_exists.mp (by rw [List.getLast?_isSome]; rintro hno; simp [hno] at hlength)
    exact ⟨hlength, r, hr, hbuilt r hr⟩
  · intro name e hs
    obtain ⟨before, -, rs, ht, hall, -, hfailed⟩ := hs.failed hselect
    obtain rfl := hrecords ht
    obtain ⟨r, hr, hname⟩ : ∃ r, records.getLast? = some r ∧ r.name = name := by
      have hlast := congrArg List.getLast? hall
      rwa [List.getLast?_map, List.getLast?_concat, Option.map_eq_some_iff] at hlast
    exact ⟨r, hr, hname, hfailed r hr⟩
  · intro e hs
    obtain ⟨names, -, rs, ht, -, hdone, hlast⟩ := hs.between hselect
    obtain rfl := hrecords ht
    exact forall_mem_of_dropLast (fun r hr => .inl (hdone r hr)) hlast

theorem install_phases_heard :
    let project := { Project.inPlace [] true with select := Selection.interactive }
    let reference : Reference := ⟨"https://e.com/n".toList, ['1']⟩
    let h := { Host.ofManifest oneTarget (Run.locking newLockfile) with listeners := [.broken, .observe] }
    let left := (project.install reference h).2
    (∀ names, Unseen (project.select names)) ∧ h.tracker = Tracker.empty ∧ left.tracker.records.length = 5 ∧
      left.heardBy 1 = left.tracker.records.flatMap PhaseRecord.life := by
  intro project reference h left
  have hselect : ∀ names, Unseen (project.select names) := Unseen.interactive
  have hok : (project.install reference h).1.isOk = true := by decide +kernel
  obtain ⟨-, -, hreturned, -, -, -, -, hheard⟩ := install_phases hselect (h := h) rfl rfl
  obtain ⟨installed, hinstalled⟩ : ∃ installed, (project.install reference h).1 = .ok installed := by
    rcases hr : (project.install reference h).1 with e | installed
    · rw [hr] at hok
      simp [Except.isOk, Except.toBool] at hok
    · exact ⟨installed, rfl⟩
  exact ⟨hselect, rfl, (hreturned installed hinstalled).1, hheard 1 (by decide)⟩

end Project

end PackageInstaller
