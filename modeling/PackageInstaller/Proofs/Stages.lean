import PackageInstaller.Proofs.Faults
import PackageInstaller.Proofs.Machines

/-! An installation in stages: what is done before any file is written, what is done until the targets are
wired, and the rest. -/

namespace PackageInstaller.Project

open Manifest

/-- Reads the files, selects targets and declares the package in the text of the manifest. -/
def declare (project : Project) (reference : Reference) : Action (List Lockfile.Pin × Prepared) := do
  let (t, before) ← Action.phase readPhase fun _ => project.readFiles
  let prepared ← Action.phase targetsPhase (project.prepareIn t reference)
  return (before, prepared)

/-- Writes the manifest, resolves the package and wires the targets. -/
def resolveAndWire (project : Project) (reference : Reference) (prepared : Prepared) : Action (Text × Text) := do
  ManifestFile.write project.manifest prepared.manifest
  Action.phase resolvePhase fun _ => project.resolve
  Action.phase wirePhase (project.wireIn prepared reference.url)

/-- Builds, and counts what was installed. -/
def finish (project : Project) (reference : Reference) (before : List Lockfile.Pin) (prepared : Prepared)
    (identifier manifest : Text) : Action Installed := do
  project.buildOrSkip
  let after ← Lockfile.readPins project.lockfile false
  let installed : Installed :=
    ⟨reference, identifier, prepared.targets, Lockfile.countNew before after, manifest⟩
  Action.logged .info "mutator.installed" (installedFields installed)
  return installed

theorem install_eq (project : Project) (reference : Reference) : project.install reference =
    project.declare reference >>= fun d => project.resolveAndWire reference d.2 >>= fun w =>
      project.finish reference d.1 d.2 w.1 w.2 := by
  simp only [install, declare, resolveAndWire, finish, bind_assoc, pure_bind]

end PackageInstaller.Project

namespace PackageInstaller

open Manifest

/-- The selector answers `targets` when it is asked for `names` on the host, whatever has been told by then. -/
def Project.Selects (project : Project) (h : Host) (names targets : List Text) : Prop :=
  ∃ p h', project.select names { h with toProgress := p } = (.ok targets, h')

/-- What the first stage finds on the host and makes of it: the pins that are there, and the manifest with the
package declared, once targets are selected among those of its text. -/
structure Project.Declares (project : Project) (reference : Reference) (h : Host) (before : List Lockfile.Pin)
    (prepared : Prepared) : Prop where
  usable : project.manifest.isUsable = true
  pinned : (Lockfile.pinsAt h.disk h.here project.lockfile true).outcome = .ok before
  declared : ∃ t names, ManifestFile.textOf h.disk h.here project.manifest = .ok t ∧
    (selectableTargets t).outcome = .ok names ∧ project.Selects h names prepared.targets ∧
      (declareFor t reference names prepared.targets).outcome = .ok prepared

/-- With the package declared in the manifest, its versions are resolved, and it is named as the first of its pins
in the lockfile. -/
def Project.Names (project : Project) (m : Machine) (declared url name : Text) : Prop :=
  ∃ disk m' earlier pin later, m.disk.write m.here project.manifest (Encoding.encodeUtf8 declared) = .ok disk ∧
    Runs project.resolve { m with disk := disk } (.ok ()) m' ∧
    (Lockfile.pinsAt m'.disk m'.here project.lockfile false).outcome = .ok (earlier ++ pin :: later) ∧
    (∀ other ∈ earlier, other.key ≠ Repository.canonicalUrl url) ∧
    pin.key = Repository.canonicalUrl url ∧ pin.name = name

variable {project : Project} {reference : Reference} {h h' : Host} {m m' : Machine} {prepared : Prepared}
  {identifier manifest : Text} {before : List Lockfile.Pin} {halves : List Char}

namespace Action

variable {α β : Type} {x : Action α} {f : α → Action β} {h h' : Host} {a : α}

lemma bind_eq_ok {b : β} : (x >>= f) h = (.ok b, h') ↔ ∃ a h₁, x h = (.ok a, h₁) ∧ f a h₁ = (.ok b, h') := by
  rw [bind_run]
  rcases x h with ⟨e | a, h₁⟩ <;> simp

lemma phase_eq_ok {name : Text} {body : Nat → Action α} (hp : phase name body h = (.ok a, h')) :
    ∃ position p p' h₁, body position { h with toProgress := p } = (.ok a, h₁) ∧
      h' = { h₁ with toProgress := p' } := by
  rw [phase] at hp
  simp only at hp
  obtain ⟨ha, rfl⟩ := Prod.mk.inj hp
  exact ⟨_, _, _, _, Prod.ext ha rfl, rfl⟩

lemma ofAttempt_eq_ok {ε : Type} {g : ε → Failure} {attempt : Attempt ε α}
    (hx : ofAttempt g attempt h = (.ok a, h')) :
    attempt.outcome = .ok a ∧ ∃ p, h' = { h with toProgress := p } := by
  obtain ⟨ha, rfl⟩ := Prod.mk.inj hx
  exact ⟨mapError_eq_ok.mp ha, _, rfl⟩

lemma descend_eq_ok {scanning : Scanning} {begun : Bool} (hx : descend scanning begun h = (.ok (), h')) : h' = h := by
  rw [descend] at hx
  split at hx
  · exact (Prod.mk.inj hx).2.symm
  · simp at hx

lemma read_eq_ok {path : Path} {t : Text} (hx : ManifestFile.read path h = (.ok t, h')) :
    path.isUsable = true ∧ ManifestFile.textOf h.disk h.here path = .ok t ∧ h' = h := by
  rw [ManifestFile.read] at hx
  split_ifs at hx with husable
  · obtain ⟨ht, rfl⟩ := Prod.mk.inj hx
    exact ⟨husable, mapError_eq_ok.mp ht, rfl⟩
  · simp at hx

lemma readPins_eq_ok {path : Path} {missingOk : Bool} {pins : List Lockfile.Pin}
    (hx : Lockfile.readPins path missingOk h = (.ok pins, h')) :
    (Lockfile.pinsAt h.disk h.here path missingOk).outcome = .ok pins ∧ ∃ p, h' = { h with toProgress := p } :=
  ofAttempt_eq_ok hx

end Action

lemma Quiet.declare (hselect : ∀ names, Quiet (project.select names)) : Quiet (project.declare reference) :=
  (phase fun _ => (read _).bind fun _ => (readPins _ _).bind fun _ => pure _).bind fun _ =>
    (phase fun _ => ((descend _ _).bind fun _ => (ofAttempt _ _).bind fun names => (hselect names).bind fun _ =>
      (descend _ _).bind fun _ => ofAttempt _ _).bind fun _ => (onProgress _).bind fun _ => pure _).bind
        fun _ => pure _

lemma Project.prepare_eq_ok {t : Text} (hp : project.prepare t reference h = (.ok prepared, h')) :
    ∃ names h₁, (selectableTargets t).outcome = .ok names ∧ (∃ p, project.select names { h with toProgress := p } =
      (.ok prepared.targets, h₁)) ∧ (declareFor t reference names prepared.targets).outcome = .ok prepared := by
  obtain ⟨⟨⟩, h₁, hdescend, hrest⟩ := Action.bind_eq_ok.mp hp
  rw [Action.descend_eq_ok hdescend] at hrest
  obtain ⟨names, h₂, hlocate, hasked⟩ := Action.bind_eq_ok.mp hrest
  obtain ⟨hnames, p, rfl⟩ := Action.ofAttempt_eq_ok hlocate
  obtain ⟨selected, h₃, hselected, hdeclare⟩ := Action.bind_eq_ok.mp hasked
  obtain ⟨⟨⟩, h₄, -, hend⟩ := Action.bind_eq_ok.mp hdeclare
  obtain ⟨hdeclared, -⟩ := Action.ofAttempt_eq_ok hend
  obtain ⟨-, rfl, -⟩ := declareFor_eq_ok hdeclared
  exact ⟨names, h₃, hnames, ⟨p, hselected⟩, hdeclared⟩

lemma Project.readFiles_eq_ok {t : Text} {pins : List Lockfile.Pin}
    (hr : project.readFiles h = (.ok (t, pins), h')) : project.manifest.isUsable = true ∧
      ManifestFile.textOf h.disk h.here project.manifest = .ok t ∧
      (Lockfile.pinsAt h.disk h.here project.lockfile true).outcome = .ok pins ∧
        ∃ p, h' = { h with toProgress := p } := by
  obtain ⟨t', h₁, hread, hrest⟩ := Action.bind_eq_ok.mp hr
  obtain ⟨husable, ht, rfl⟩ := Action.read_eq_ok hread
  obtain ⟨pins', h₂, hlockfile, hend⟩ := Action.bind_eq_ok.mp hrest
  obtain ⟨hpins, p, rfl⟩ := Action.readPins_eq_ok hlockfile
  obtain ⟨hok, rfl⟩ := Prod.mk.inj hend
  obtain ⟨rfl, rfl⟩ := Prod.mk.inj (Except.ok.inj hok)
  exact ⟨husable, ht, hpins, p, rfl⟩

lemma Project.declare_eq_ok (hd : project.declare reference h = (.ok (before, prepared), h')) :
    project.Declares reference h before prepared := by
  obtain ⟨⟨t, pins⟩, h₁, hread, hrest⟩ := Action.bind_eq_ok.mp hd
  obtain ⟨-, p, p', h₂, hfiles, rfl⟩ := Action.phase_eq_ok hread
  obtain ⟨husable, ht, hpins, p₂, rfl⟩ := Project.readFiles_eq_ok hfiles
  obtain ⟨prepared', h₃, htargets, hend⟩ := Action.bind_eq_ok.mp hrest
  obtain ⟨position, p₃, p₄, h₄, hin, rfl⟩ := Action.phase_eq_ok htargets
  obtain ⟨prepared'', h₅, hprepare, hdetail⟩ := Action.bind_eq_ok.mp hin
  obtain ⟨names, h₆, hnames, ⟨p₆, hselected⟩, hdeclared⟩ := Project.prepare_eq_ok hprepare
  -- what is given back is what was prepared
  obtain ⟨⟨⟩, -, -, hdetail⟩ := Action.bind_eq_ok.mp hdetail
  obtain rfl := Except.ok.inj (Prod.mk.inj hdetail).1
  obtain ⟨rfl, rfl⟩ := Prod.mk.inj (Except.ok.inj (Prod.mk.inj hend).1)
  exact ⟨husable, hpins, t, names, ht, hnames, ⟨p₆, h₆, hselected⟩, hdeclared⟩

lemma Lockfile.nameAt_eq_ok {d : Disk} {here : Place} {path : Path} {url name : Text}
    (hname : (nameAt d here path url).outcome = .ok name) :
    ∃ earlier pin later, (pinsAt d here path false).outcome = .ok (earlier ++ pin :: later) ∧
      (∀ other ∈ earlier, other.key ≠ Repository.canonicalUrl url) ∧
        pin.key = Repository.canonicalUrl url ∧ pin.name = name := by
  obtain ⟨pins, hpins, hname⟩ := Attempt.bind_eq_ok.mp hname
  split at hname
  · simp at hname
  · rename_i pin hpin
    obtain ⟨hkey, earlier, later, rfl, hearlier⟩ := List.find?_eq_some_iff_append.mp hpin
    exact ⟨earlier, pin, later, hpins, by simpa using hearlier, by simpa using hkey, Except.ok.inj hname⟩

lemma Runs.written {t : Text} (hw : Runs (ManifestFile.writeWith halves project.manifest t) m (.ok ()) m') :
    ∃ disk, m.disk.write m.here project.manifest (Encoding.encodeUtf8 t) = .ok disk ∧
      m' = { m with disk := disk } := by
  rcases hw.write with ⟨-, hdisk⟩ | ⟨e, hno, -⟩
  · exact hdisk
  · simp at hno

lemma Runs.unwritten {t : Text} {e : Failure}
    (hw : Runs (ManifestFile.writeWith halves project.manifest t) m (.error e) m') :
    Unwritten project.manifest halves m e m' := by
  rcases hw.write with ⟨hno, -⟩ | ⟨e', he, hunwritten⟩
  · simp at hno
  · rwa [Except.error.inj he]

/-- The wiring of the targets is not begun, or its outcome is written, or that write fails. -/
lemma Runs.wireTargets {r : Except Failure Text}
    (h : Runs (project.wireTargets prepared identifier halves) m r m') :
    (∃ t disk, (wire prepared.manifest identifier prepared.targets).outcome = .ok t ∧ r = .ok t ∧
      m.disk.write m.here project.manifest (Encoding.encodeUtf8 t) = .ok disk ∧ m' = { m with disk := disk }) ∨
    (∃ cause disk, (wire prepared.manifest identifier prepared.targets).outcome = .error (.wiring cause) ∧
      r = .error (.wiring cause) ∧
      m.disk.write m.here project.manifest (Encoding.encodeUtf8 cause.manifest) = .ok disk ∧
        m' = { m with disk := disk }) ∨
    (∃ message, m.overflow .wiring = some message ∧ r = .error (.refused message) ∧ m' = m) ∨
    ∃ e, r = .error e ∧ Unwritten project.manifest halves m e m' := by
  rcases Runs.bind h with ⟨e, hdescend, rfl⟩ | ⟨⟨⟩, m₁, hdescend, hrest⟩
  · obtain ⟨rfl, hno | ⟨message, hmessage, he⟩⟩ := hdescend.descend
    · simp at hno
    · exact .inr (.inr (.inl ⟨message, hmessage, by rw [Except.error.inj he], rfl⟩))
  obtain ⟨rfl, -⟩ := hdescend.descend
  have hbody := Runs.onProgress_bind hrest
  cases hwire : (wire prepared.manifest identifier prepared.targets).outcome with
  | ok t =>
    rw [hwire] at hbody
    rcases Runs.bind hbody with ⟨e, hw, he⟩ | ⟨⟨⟩, m₂, hw, hend⟩
    · exact .inr (.inr (.inr ⟨e, he, hw.unwritten⟩))
    · obtain ⟨disk, hdisk, rfl⟩ := hw.written
      obtain ⟨rfl, rfl⟩ := hend.pure
      exact .inl ⟨t, disk, rfl, rfl, hdisk, rfl⟩
  | error err =>
    obtain ⟨cause, rfl, -⟩ := wire_error hwire
    rw [hwire] at hbody
    rcases Runs.bind hbody with ⟨e, hw, he⟩ | ⟨⟨⟩, m₂, hw, hend⟩
    · exact .inr (.inr (.inr ⟨e, he, hw.unwritten⟩))
    · obtain ⟨disk, hdisk, rfl⟩ := hw.written
      obtain ⟨rfl, rfl⟩ := hend.fail
      exact .inr (.inl ⟨cause, disk, rfl, rfl, hdisk, rfl⟩)

/-- The targets are wired on the machine that the name is looked up on. -/
lemma Runs.wireIn {url : Text} {position : Nat} {w : Except Failure (Text × Text)}
    (h : Runs (project.wireIn prepared url position) m w m') :
    (∃ e, w = .error e ∧ m' = m ∧ (Lockfile.nameAt m.disk m.here project.lockfile url).outcome = .error e) ∨
      ∃ identifier r, (Lockfile.nameAt m.disk m.here project.lockfile url).outcome = .ok identifier ∧
        Runs (project.wireTargets prepared identifier (Lockfile.halvesAt m.disk m.here project.lockfile url)) m r m' ∧
          w = r.map fun t => (identifier, t) := by
  rcases Runs.bind h with ⟨e, hn, rfl⟩ | ⟨identifier, m₁, hn, hnamed⟩
  · obtain ⟨rfl, hname⟩ := hn.packageNameFor
    exact .inl ⟨e, rfl, rfl, hname.symm⟩
  obtain ⟨rfl, hname⟩ := hn.packageNameFor
  rcases Runs.bind hnamed with ⟨e, hno, -⟩ | ⟨halves, m₂, hin, htargets⟩
  · obtain ⟨-, h₀, -, hno⟩ := hno.inspect
    simp at hno
  obtain ⟨rfl, h₀, rfl, hhalves⟩ := hin.inspect
  obtain rfl := Except.ok.inj hhalves
  rcases Runs.bind htargets with ⟨e, ht, rfl⟩ | ⟨t, m₃, ht, hend⟩
  · exact .inr ⟨identifier, .error e, hname.symm, ht, rfl⟩
  · obtain ⟨rfl, rfl⟩ := hend.onProgress_bind.pure
    exact .inr ⟨identifier, .ok t, hname.symm, ht, rfl⟩

/-- Either the manifest cannot be written, or the package is not resolved, or its name is not found, or the
targets are wired as far as they can be. -/
lemma Runs.resolveAndWire {w : Except Failure (Text × Text)}
    (h : Runs (project.resolveAndWire reference prepared) m w m') :
    (∃ e, w = .error e ∧ Unwritten project.manifest [] m e m') ∨
      ∃ disk, m.disk.write m.here project.manifest (Encoding.encodeUtf8 prepared.manifest) = .ok disk ∧
        ((∃ e, w = .error e ∧ Runs project.resolve { m with disk := disk } (.error e) m') ∨
          ∃ m₁, Runs project.resolve { m with disk := disk } (.ok ()) m₁ ∧
            ((∃ e, w = .error e ∧ m' = m₁ ∧
              (Lockfile.nameAt m₁.disk m₁.here project.lockfile reference.url).outcome = .error e) ∨
            ∃ identifier r,
              (Lockfile.nameAt m₁.disk m₁.here project.lockfile reference.url).outcome = .ok identifier ∧
                Runs (project.wireTargets prepared identifier
                  (Lockfile.halvesAt m₁.disk m₁.here project.lockfile reference.url)) m₁ r m' ∧
                  w = r.map fun t => (identifier, t))) := by
  rcases Runs.bind h with ⟨e, hw, rfl⟩ | ⟨⟨⟩, m₀, hw, hrest⟩
  · exact .inl ⟨e, rfl, hw.unwritten⟩
  obtain ⟨disk, hdisk, rfl⟩ := hw.written
  refine .inr ⟨disk, hdisk, ?_⟩
  rcases Runs.phase_bind hrest with ⟨e, position, hr, rfl⟩ | ⟨⟨⟩, m₁, position, hr, hwire⟩
  · exact .inl ⟨e, rfl, hr⟩
  obtain ⟨position, hwire⟩ := hwire.phase
  exact .inr ⟨m₁, hr, hwire.wireIn⟩

lemma Runs.buildOrSkip {r : Except Failure Unit} (h : Runs project.buildOrSkip m r m') :
    (project.build = false ∧ r = .ok () ∧ m' = m) ∨
      (project.build = true ∧ Runs (project.toolchain.run .build) m r m') := by
  rw [Project.buildOrSkip] at h
  cases hb : project.build with
  | false =>
    rw [if_neg (by simp [hb])] at h
    exact .inl ⟨rfl, h.onProgress⟩
  | true =>
    rw [if_pos hb] at h
    obtain ⟨position, h⟩ := h.phase
    exact .inr ⟨rfl, h⟩

lemma Runs.finish {r : Except Failure Installed}
    (h : Runs (project.finish reference before prepared identifier manifest) m r m') :
    (∃ e, Runs project.buildOrSkip m (.error e) m' ∧ r = .error e) ∨
      Runs project.buildOrSkip m (.ok ()) m' ∧
        ((∃ e, Lockfile.Unread m'.disk m'.here project.lockfile e ∧ r = .error e) ∨
          ∃ after, (Lockfile.pinsAt m'.disk m'.here project.lockfile false).outcome = .ok after ∧
            r = .ok ⟨reference, identifier, prepared.targets, Lockfile.countNew before after, manifest⟩) := by
  rcases Runs.bind h with ⟨e, hb, rfl⟩ | ⟨⟨⟩, m₁, hb, hrest⟩
  · exact .inl ⟨e, hb, rfl⟩
  rcases Runs.bind hrest with ⟨e, hp, rfl⟩ | ⟨after, m₂, hp, hend⟩
  · obtain ⟨rfl, hpins⟩ := hp.readPins
    exact .inr ⟨hb, .inl ⟨e, .of_pins hpins.symm, rfl⟩⟩
  · obtain ⟨rfl, hpins⟩ := hp.readPins
    obtain ⟨rfl, rfl⟩ := hend.onProgress_bind.pure
    exact .inr ⟨hb, .inr ⟨after, hpins.symm, rfl⟩⟩

end PackageInstaller
