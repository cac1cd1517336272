import PackageInstaller.Proofs.Stages

/-! What an installation leaves behind, wherever it ends: the commands that it started, and what is in the
manifest. -/

namespace PackageInstaller

open Manifest

/-- The commands that an installation is to start. -/
def Project.planned (project : Project) : List Subcommand :=
  [.update, .resolve] ++ if project.build then [.build] else []

/-- These commands were started since `m`, each after those before it had ended well, and the first when
nothing was left of earlier builds. -/
structure Started (toolchain : Toolchain) (m : Machine) (started : List Subcommand) (m' : Machine) : Prop where
  here : m'.here = m.here
  swift : m'.swift = m.swift
  calls : ∃ calls, m'.calls = m.calls ++ calls ∧
    calls.map (·.command) = started.map toolchain.command ∧
    ∀ call ∈ calls.head?, call.disk.at? m.here toolchain.buildFolder = none
  succeeded : ∀ subcommand ∈ started.dropLast, ∃ report, (m.swift subcommand).ending = .exited 0 report

/-- The file at `place` is the manifest, no build takes it away, and no command changes it. -/
structure Undisturbed (project : Project) (m : Machine) (place : Place) : Prop where
  located : m.disk.locate m.here project.manifest = .ok place
  cleaned : ∀ b, m.disk.locate m.here project.toolchain.buildFolder = .ok b → ¬b <+: place
  kept : ∀ subcommand d bytes, d.get? place = some (.file bytes) →
    ((m.swift subcommand).changes.foldl Disk.apply d).get? place = some (.file bytes)

/-- What wiring the targets leaves in the manifest: the text of the last step that wrote it. -/
def textLeft (prepared : Prepared) : Except Failure (Text × Text) → Text
  | .ok (_, manifest) => manifest
  | .error (.wiring cause) => cause.manifest
  | .error _ => prepared.manifest

variable {project : Project} {reference : Reference} {toolchain : Toolchain} {m m' : Machine} {place : Place}
  {bytes : Bytes} {started : List Subcommand} {prepared : Prepared} {identifier manifest : Text}
  {before : List Lockfile.Pin} {halves : List Char}

lemma Started.refl (toolchain : Toolchain) (m : Machine) : Started toolchain m [] m :=
  ⟨rfl, rfl, ⟨[], by simp, rfl, by simp⟩, by simp⟩

lemma Started.of_machine {toolchain : Toolchain} {m'' : Machine} (h : Started toolchain m started m')
    (hh : m''.here = m'.here) (hs : m''.swift = m'.swift) (hc : m''.calls = m'.calls) :
    Started toolchain m started m'' := by
  obtain ⟨calls, hcalls, hcommands, hfirst⟩ := h.calls
  exact ⟨hh.trans h.here, hs.trans h.swift, ⟨calls, hc.trans hcalls, hcommands, hfirst⟩, h.succeeded⟩

lemma Started.run {toolchain : Toolchain} {subcommand : Subcommand} {r : Except Failure Unit} {m'' : Machine}
    (h : Started toolchain m started m') (hr : Runs (toolchain.run subcommand) m' r m'')
    (hdone : ∀ subcommand ∈ started, ∃ report, (m.swift subcommand).ending = .exited 0 report)
    (hclean : started = [] → m'.disk.at? m.here toolchain.buildFolder = none) :
    Started toolchain m (started ++ [subcommand]) m'' ∧ (r = .ok () →
      ∀ s ∈ started ++ [subcommand], ∃ report, (m.swift s).ending = .exited 0 report) := by
  obtain ⟨rfl, hend⟩ := hr.run
  obtain ⟨calls, hcalls, hcommands, hfirst⟩ := h.calls
  refine ⟨⟨h.here, h.swift,
    ⟨calls ++ [toolchain.callOf (toolchain.command subcommand) m'.disk], ?_, ?_, ?_⟩, ?_⟩, ?_⟩
  · rw [hcalls, List.append_assoc]
  · rw [List.map_append, List.map_append, hcommands]
    rfl
  · cases calls with
    | nil =>
      intro call hc
      obtain rfl : toolchain.callOf (toolchain.command subcommand) m'.disk = call := Option.some.inj hc
      exact hclean (by simpa using hcommands.symm)
    | cons call rest => exact hfirst
  · rw [List.dropLast_concat]
    exact hdone
  · rintro rfl s hs
    rcases List.mem_append.mp hs with hs | hs
    · exact hdone s hs
    · obtain rfl := List.mem_singleton.mp hs
      rw [← h.swift]
      rcases hend with ⟨-, hexit⟩ | ⟨failure, he, -⟩
      · exact hexit
      · simp at he

lemma Runs.clean_keeps {r : Except Failure Unit} {q : Place} {entry : Entry} (h : Runs toolchain.clean m r m')
    (hq : ∀ b, m.disk.locate m.here toolchain.buildFolder = .ok b → ¬b <+: q)
    (hg : m.disk.get? q = some entry) : m'.disk.get? q = some entry := by
  rcases h.clean with ⟨-, -, rfl | ⟨b, hb, rfl⟩⟩ | ⟨e, -, huncleaned⟩
  · exact hg
  · simp only [Disk.get?_erase, if_neg (hq b hb), hg]
  · cases huncleaned with
    | folder hb _ =>
      refine Disk.get?_foldl_erase hg fun p hp hpre => hq _ hb ?_
      exact (List.isPrefixOf_iff_prefix.mp (List.mem_filter.mp hp).2).trans hpre
    | _ => exact hg

lemma Runs.clean_started {r : Except Failure Unit} (h : Runs toolchain.clean m r m') :
    Started toolchain m [] m' ∧ (r = .ok () → m'.disk.at? m.here toolchain.buildFolder = none) := by
  rcases h.clean with ⟨rfl, hat, rfl | ⟨b, -, rfl⟩⟩ | ⟨e, rfl, huncleaned⟩
  · exact ⟨.refl _ _, fun _ => hat⟩
  · exact ⟨(Started.refl _ _).of_machine rfl rfl rfl, fun _ => hat⟩
  · cases huncleaned <;> exact ⟨(Started.refl _ _).of_machine rfl rfl rfl, by simp⟩

lemma Runs.resolve_started {r : Except Failure Unit} (h : Runs project.resolve m r m') :
    ∃ started, started <+: [.update, .resolve] ∧ Started project.toolchain m started m' ∧
      (r = .ok () → started = [.update, .resolve] ∧
        ∀ s ∈ started, ∃ report, (m.swift s).ending = .exited 0 report) := by
  rcases Runs.bind h with ⟨e, hc, rfl⟩ | ⟨⟨⟩, m₁, hc, h⟩
  · exact ⟨[], by simp, hc.clean_started.1, by simp⟩
  · obtain ⟨hs, hat⟩ := hc.clean_started
    rcases Runs.bind h with ⟨e, hu, rfl⟩ | ⟨⟨⟩, m₂, hu, hr⟩
    · exact ⟨[.update], by simp, (hs.run hu (by simp) fun _ => hat rfl).1, by simp⟩
    · obtain ⟨hs, hdone⟩ := hs.run hu (by simp) fun _ => hat rfl
      obtain ⟨hs, hdone⟩ := hs.run hr (hdone rfl) (by simp)
      exact ⟨[.update, .resolve], List.prefix_rfl, hs, fun hok => ⟨rfl, hdone hok⟩⟩

lemma Runs.run_keeps {subcommand : Subcommand} {r : Except Failure Unit}
    (h : Runs (toolchain.run subcommand) m r m') (hk : ∀ d bytes, d.get? place = some (.file bytes) →
      ((m.swift subcommand).changes.foldl Disk.apply d).get? place = some (.file bytes))
    (hg : m.disk.get? place = some (.file bytes)) : m'.disk.get? place = some (.file bytes) := by
  obtain ⟨rfl, -⟩ := h.run
  exact hk _ _ hg

lemma Runs.run_swift {subcommand : Subcommand} {r : Except Failure Unit}
    (h : Runs (toolchain.run subcommand) m r m') : m'.swift = m.swift ∧ m'.here = m.here := by
  obtain ⟨rfl, -⟩ := h.run
  exact ⟨rfl, rfl⟩

lemma Runs.resolve_keeps {r : Except Failure Unit} (h : Runs project.resolve m r m')
    (hu : Undisturbed project m place) (hg : m.disk.get? place = some (.file bytes)) :
    m'.disk.get? place = some (.file bytes) := by
  rcases Runs.bind h with ⟨e, hc, -⟩ | ⟨⟨⟩, m₁, hc, h⟩
  · exact hc.clean_keeps hu.cleaned hg
  · have hg := hc.clean_keeps hu.cleaned hg
    have hswift := hc.clean_started.1.swift
    rcases Runs.bind h with ⟨e, hr, -⟩ | ⟨⟨⟩, m₂, hr, hr'⟩
    · exact hr.run_keeps (hswift ▸ hu.kept .update) hg
    · have hg := hr.run_keeps (hswift ▸ hu.kept .update) hg
      exact hr'.run_keeps (hr.run_swift.1.trans hswift ▸ hu.kept .resolve) hg

lemma Started.of_disk {disk : Disk} (h : Started toolchain { m with disk := disk } started m') :
    Started toolchain m started m' :=
  ⟨h.here, h.swift, h.calls, h.succeeded⟩

lemma Runs.wireTargets_started {r : Except Failure Text}
    (h : Runs (project.wireTargets prepared identifier halves) m r m') {m₀ : Machine}
    (hs : Started toolchain m₀ started m) : Started toolchain m₀ started m' := by
  rcases h.wireTargets with ⟨_, _, -, -, -, rfl⟩ | ⟨_, _, -, -, -, rfl⟩ | ⟨_, -, -, rfl⟩ | ⟨_, -, hunwritten⟩
  · exact hs.of_machine rfl rfl rfl
  · exact hs.of_machine rfl rfl rfl
  · exact hs
  · obtain ⟨disk, rfl⟩ := hunwritten.machine
    exact hs.of_machine rfl rfl rfl

lemma Runs.resolveAndWire_started {w : Except Failure (Text × Text)}
    (h : Runs (project.resolveAndWire reference prepared) m w m') :
    ∃ started, started <+: [.update, .resolve] ∧ Started project.toolchain m started m' ∧
      ∀ v, w = .ok v → started = [.update, .resolve] ∧
        ∀ s ∈ started, ∃ report, (m.swift s).ending = .exited 0 report := by
  rcases h.resolveAndWire with ⟨e, rfl, hunwritten⟩ | ⟨disk, -, ⟨e, rfl, hr⟩ | ⟨m₁, hr, hrest⟩⟩
  · rw [hunwritten.unchanged]
    exact ⟨[], List.nil_prefix, .refl _ _, by simp⟩
  · obtain ⟨started, hpre, hs, -⟩ := hr.resolve_started
    exact ⟨started, hpre, hs.of_disk, by simp⟩
  · obtain ⟨started, hpre, hs, hok⟩ := hr.resolve_started
    refine ⟨started, hpre, ?_, fun _ _ => hok rfl⟩
    rcases hrest with ⟨e, -, rfl, -⟩ | ⟨identifier, r, -, hwire, -⟩
    · exact hs.of_disk
    · exact hwire.wireTargets_started hs.of_disk

lemma Runs.finish_build {r : Except Failure Installed}
    (h : Runs (project.finish reference before prepared identifier manifest) m r m') :
    ∃ b, Runs project.buildOrSkip m b m' := by
  rcases h.finish with ⟨e, hb, -⟩ | ⟨hb, -⟩
  · exact ⟨_, hb⟩
  · exact ⟨_, hb⟩

lemma Runs.finish_started {m₀ : Machine} {r : Except Failure Installed}
    (h : Runs (project.finish reference before prepared identifier manifest) m r m')
    (hs : Started project.toolchain m₀ [.update, .resolve] m)
    (hdone : ∀ s ∈ [Subcommand.update, .resolve], ∃ report, (m₀.swift s).ending = .exited 0 report) :
    Started project.toolchain m₀ project.planned m' := by
  obtain ⟨b, hb⟩ := h.finish_build
  rcases hb.buildOrSkip with ⟨hbuild, -, rfl⟩ | ⟨hbuild, hrun⟩
  · rw [Project.planned, hbuild]
    exact hs
  · rw [Project.planned, hbuild]
    exact (hs.run hrun hdone (by simp)).1

lemma Undisturbed.of_folder {name : Text} (hlocate : m.disk.locate m.here project.manifest = .ok place)
    (hmanifest : project.manifest = project.toolchain.folder.join ⟨[], [name]⟩)
    (hname : name ≠ ".build".toList) (hup : name ≠ ['.', '.'])
    (hchanges : ∀ subcommand, ∀ change ∈ (m.swift subcommand).changes, ¬change.place <+: place) :
    Undisturbed project m place := by
  -- both paths are one name longer than that of the folder, so one prefix of the other means one name
  refine ⟨hlocate, fun b hb hpre => ?_, fun subcommand d bytes hg =>
    Disk.get?_foldl_apply hg (hchanges subcommand)⟩
  have hfolder : project.toolchain.buildFolder =
      ⟨project.toolchain.folder.root, project.toolchain.folder.names ++ [".build".toList]⟩ := rfl
  rw [hmanifest] at hlocate
  rw [hfolder] at hb
  obtain ⟨q, hq, rfl⟩ := Disk.walk_concat hup (Disk.walk_of_locate hlocate)
  obtain ⟨q', hq', rfl⟩ := Disk.walk_concat (by decide) (Disk.walk_of_locate hb)
  obtain rfl := Disk.walk_eq hq hq'
  have hsame := List.append_cancel_left (hpre.eq_of_length (by simp))
  exact hname (List.cons.inj hsame).1.symm

lemma Undisturbed.write {disk : Disk} (h : Undisturbed project m place)
    (hw : m.disk.write m.here project.manifest bytes = .ok disk) :
    Undisturbed project { m with disk := disk } place ∧ disk.get? place = some (.file bytes) := by
  obtain ⟨q, hq, hfolder, rfl⟩ := Disk.write_eq_ok hw
  obtain rfl := Disk.locate_eq h.located hq
  have hput : ∀ {r}, m.disk.get? r = some .folder → (m.disk.put q (.file bytes)).get? r = some .folder := by
    intro r hr
    rw [Disk.get?_put_of_ne, hr]
    rintro rfl
    exact hfolder hr
  have hof : ∀ {r}, (m.disk.put q (.file bytes)).get? r = some .folder → m.disk.get? r = some .folder := by
    intro r hr
    rcases eq_or_ne r q with rfl | hne
    · simp at hr
    · rwa [Disk.get?_put_of_ne hne] at hr
  exact ⟨⟨Disk.locate_of_folders (fun _ => hput) h.located,
    fun b hb => h.cleaned b (Disk.locate_of_folders (fun _ => hof) hb), h.kept⟩, Disk.get?_put_self _ _ _⟩

lemma Undisturbed.get?_write {d disk : Disk} (h : Undisturbed project m place)
    (hw : d.write m.here project.manifest bytes = .ok disk) : disk.get? place = some (.file bytes) := by
  obtain ⟨q, hq, -, rfl⟩ := Disk.write_eq_ok hw
  obtain rfl := Disk.locate_eq h.located hq
  exact Disk.get?_put_self _ _ _

lemma Runs.run_ne_wiring {subcommand : Subcommand} {e : Failure}
    (h : Runs (toolchain.run subcommand) m (.error e) m') (cause : WiringError) : e ≠ .wiring cause := by
  rintro rfl
  rcases h.run_error with ⟨_, hno⟩ | ⟨_, -, hno⟩ | ⟨_, -, hno⟩ <;> simp at hno

lemma Runs.resolve_ne_wiring {e : Failure} (h : Runs project.resolve m (.error e) m') (cause : WiringError) :
    e ≠ .wiring cause := by
  rintro rfl
  rcases Runs.bind h with ⟨e, hc, he⟩ | ⟨⟨⟩, m₁, -, hrest⟩
  · obtain rfl := Except.error.inj he
    rcases hc.clean with ⟨hno, -⟩ | ⟨e, he, huncleaned⟩
    · simp at hno
    · obtain rfl := Except.error.inj he
      cases huncleaned
  rcases Runs.bind hrest with ⟨e, hu, he⟩ | ⟨⟨⟩, m₂, -, hr⟩
  · exact hu.run_ne_wiring cause (Except.error.inj he).symm
  · exact hr.run_ne_wiring cause rfl

lemma textLeft_error {e : Failure} (h : ∀ cause, e ≠ .wiring cause) :
    textLeft prepared (.error e) = prepared.manifest := by
  cases e with
  | wiring cause => exact absurd rfl (h cause)
  | _ => rfl

lemma Runs.resolveAndWire_left {w : Except Failure (Text × Text)}
    (h : Runs (project.resolveAndWire reference prepared) m w m') (hu : Undisturbed project m place)
    (husable : project.manifest.isUsable = true)
    (hw : ∀ cause, w ≠ .error (.project (.unwritable project.manifest cause))) :
    m'.disk.get? place = some (.file (Encoding.encodeUtf8 (textLeft prepared w))) := by
  have hwritten : ∀ {halves m e m'}, Unwritten project.manifest halves m e m' → w ≠ .error e := by
    rintro halves m e m' hunwritten rfl
    obtain ⟨cause, rfl⟩ := hunwritten.unwritable husable
    exact hw cause rfl
  rcases h.resolveAndWire with ⟨e, rfl, hunwritten⟩ | ⟨disk, hdisk, hrest⟩
  · exact absurd rfl (hwritten hunwritten)
  obtain ⟨hu', hfile⟩ := hu.write hdisk
  rcases hrest with ⟨e, rfl, hr⟩ | ⟨m₁, hr, ⟨e, rfl, rfl, hname⟩ | ⟨identifier, r, -, hwire, rfl⟩⟩
  · rw [textLeft_error hr.resolve_ne_wiring]
    exact hr.resolve_keeps hu' hfile
  · rw [textLeft_error (Lockfile.Unread.of_name hname).ne_wiring]
    exact hr.resolve_keeps hu' hfile
  · have hhere : m₁.here = m.here := by
      obtain ⟨started, -, hs, -⟩ := hr.resolve_started
      exact hs.here
    rcases hwire.wireTargets with ⟨t, disk, -, rfl, hdisk, rfl⟩ | ⟨cause, disk, -, rfl, hdisk, rfl⟩ |
      ⟨message, -, rfl, rfl⟩ | ⟨e, rfl, hunwritten⟩
    · exact hu.get?_write (hhere ▸ hdisk)
    · exact hu.get?_write (hhere ▸ hdisk)
    · exact hr.resolve_keeps hu' hfile
    · exact absurd rfl (hwritten hunwritten)

/-- Where the targets are wired, or cannot all be, they were to be wired to the name of the package. -/
lemma Runs.resolveAndWire_wired {w : Except Failure (Text × Text)}
    (h : Runs (project.resolveAndWire reference prepared) m w m') :
    (∀ identifier manifest, w = .ok (identifier, manifest) →
      project.Names m prepared.manifest reference.url identifier ∧
        (wire prepared.manifest identifier prepared.targets).outcome = .ok manifest) ∧
    ∀ cause, w = .error (.wiring cause) → ∃ identifier,
      project.Names m prepared.manifest reference.url identifier ∧
        (wire prepared.manifest identifier prepared.targets).outcome = .error (.wiring cause) := by
  rcases h.resolveAndWire with ⟨e, rfl, hunwritten⟩ |
    ⟨disk, hdisk, ⟨e, rfl, hr⟩ | ⟨m₁, hr, ⟨e, rfl, -, hname⟩ | ⟨identifier, r, hname, hwire, rfl⟩⟩⟩
  · exact ⟨by simp, fun cause he => absurd (Except.error.inj he) (hunwritten.ne_wiring cause)⟩
  · exact ⟨by simp, fun cause he => absurd (Except.error.inj he) (hr.resolve_ne_wiring cause)⟩
  · exact ⟨by simp, fun cause he =>
      absurd (Except.error.inj he) ((Lockfile.Unread.of_name hname).ne_wiring cause)⟩
  · have hnames : project.Names m prepared.manifest reference.url identifier := by
      obtain ⟨earlier, pin, later, hpins⟩ := Lockfile.nameAt_eq_ok hname
      exact ⟨disk, m₁, earlier, pin, later, hdisk, hr, hpins⟩
    rcases hwire.wireTargets with ⟨t, disk, ht, rfl, -⟩ | ⟨cause, disk, hcause, rfl, -⟩ |
      ⟨message, -, rfl, -⟩ | ⟨e, rfl, hunwritten⟩
    · refine ⟨fun identifier' manifest heq => ?_, by simp [Except.map]⟩
      obtain ⟨rfl, rfl⟩ := Prod.mk.inj (Except.ok.inj heq)
      exact ⟨hnames, ht⟩
    · refine ⟨by simp [Except.map], fun cause' heq => ⟨identifier, hnames, ?_⟩⟩
      rw [hcause, Failure.wiring.inj (Except.error.inj heq)]
    · exact ⟨by simp [Except.map], by simp [Except.map]⟩
    · exact ⟨by simp [Except.map], fun cause he =>
        absurd (Except.error.inj he) (hunwritten.ne_wiring cause)⟩

lemma Runs.finish_ne_wiring {e : Failure}
    (h : Runs (project.finish reference before prepared identifier manifest) m (.error e) m') (cause : WiringError) :
    e ≠ .wiring cause := by
  rintro rfl
  rcases h.finish with ⟨e, hb, he⟩ | ⟨-, ⟨e, hp, he⟩ | ⟨after, -, hno⟩⟩
  · obtain rfl := Except.error.inj he
    rcases hb.buildOrSkip with ⟨-, hno, -⟩ | ⟨-, hrun⟩
    · simp at hno
    · exact hrun.run_ne_wiring cause rfl
  · exact hp.ne_wiring cause (Except.error.inj he).symm
  · simp at hno

lemma Runs.finish_manifest {installed : Installed}
    (h : Runs (project.finish reference before prepared identifier manifest) m (.ok installed) m') :
    installed.manifest = manifest := by
  rcases h.finish with ⟨e, -, hno⟩ | ⟨-, ⟨e, -, hno⟩ | ⟨after, -, hok⟩⟩
  · simp at hno
  · simp at hno
  · rw [Except.ok.inj hok]

lemma Runs.finish_keeps {r : Except Failure Installed}
    (h : Runs (project.finish reference before prepared identifier manifest) m r m')
    (hk : ∀ d bytes, d.get? place = some (.file bytes) →
      ((m.swift .build).changes.foldl Disk.apply d).get? place = some (.file bytes))
    (hg : m.disk.get? place = some (.file bytes)) : m'.disk.get? place = some (.file bytes) := by
  obtain ⟨b, hb⟩ := h.finish_build
  rcases hb.buildOrSkip with ⟨-, -, rfl⟩ | ⟨-, hrun⟩
  · exact hg
  · exact hrun.run_keeps hk hg

/-- Until the package is declared nothing happens. From then on the commands are started one after another,
and what was written last is left in the manifest, whether or not the installation goes on. The targets are
those that were selected, and what they are wired to is the name that the package is pinned under. -/
theorem Project.install_leaves (hselect : ∀ names, Quiet (project.select names)) {h h' : Host}
    {r : Except Failure Installed} (hi : project.install reference h = (r, h')) :
    (∀ e h₁, project.declare reference h = (.error e, h₁) → r = .error e ∧ h'.machine = h.machine) ∧
    ∃ started, started <+: project.planned ∧ Started project.toolchain h.machine started h'.machine ∧
      ∀ before prepared h₁ w h₂, project.declare reference h = (.ok (before, prepared), h₁) →
        project.resolveAndWire reference prepared h₁ = (w, h₂) →
          project.Declares reference h before prepared ∧
          (∀ e, w = .error e → r = .error e ∧ .build ∉ started) ∧
          (∀ cause, w = .error (.wiring cause) → ∃ identifier,
            project.Names h.machine prepared.manifest reference.url identifier ∧
            (wire prepared.manifest identifier prepared.targets).outcome = .error (.wiring cause)) ∧
          (∀ identifier manifest, w = .ok (identifier, manifest) →
            project.Names h.machine prepared.manifest reference.url identifier ∧
            (wire prepared.manifest identifier prepared.targets).outcome = .ok manifest ∧
              (∀ cause, r ≠ .error (.wiring cause)) ∧
                ∀ installed, r = .ok installed → installed.manifest = manifest) ∧
          ∀ place, Undisturbed project h.machine place →
            (∀ cause, r ≠ .error (.project (.unwritable project.manifest cause))) →
              h'.disk.get? place = some (.file (Encoding.encodeUtf8 (textLeft prepared w))) := by
  -- one case for each of the three stages that can be the last
  rw [Project.install_eq, Action.bind_run] at hi
  rcases hd : project.declare reference h with ⟨e | ⟨before, prepared⟩, h₁⟩
  · rw [hd] at hi
    obtain ⟨rfl, rfl⟩ := Prod.mk.inj hi
    have hm := (Runs.of_eq hd).quiet (.declare hselect)
    refine ⟨fun e' h₁' heq => ?_, [], List.nil_prefix, ?_, by simp⟩
    · obtain ⟨he, rfl⟩ := Prod.mk.inj heq
      exact ⟨by rw [Except.error.inj he], hm⟩
    · rw [hm]
      exact .refl _ _
  rw [hd] at hi
  simp only [Action.bind_run] at hi
  have hdeclares := Project.declare_eq_ok hd
  rcases hw : project.resolveAndWire reference prepared h₁ with ⟨w, h₂⟩
  rw [hw] at hi
  have hrw := Runs.of_eq hw
  rw [(Runs.of_eq hd).quiet (.declare hselect)] at hrw
  obtain ⟨started, hpre, hs, hdone⟩ := hrw.resolveAndWire_started
  have hbuild : .build ∉ started := fun hmem => by simpa using hpre.subset hmem
  obtain ⟨hwired, hwiring⟩ := hrw.resolveAndWire_wired
  rcases w with e | ⟨identifier, manifest⟩
  · obtain ⟨rfl, rfl⟩ := Prod.mk.inj hi
    refine ⟨by simp, started, hpre.trans (List.prefix_append _ _), hs, ?_⟩
    intro before' prepared' h₁' w' h₂' hd' hw'
    obtain ⟨hprepared, rfl⟩ := Prod.mk.inj hd'
    obtain ⟨rfl, rfl⟩ := Prod.mk.inj (Except.ok.inj hprepared)
    obtain ⟨rfl, rfl⟩ := Prod.mk.inj (hw.symm.trans hw')
    refine ⟨hdeclares, fun e' he => ⟨by rw [Except.error.inj he], hbuild⟩, hwiring, by simp, fun place hu hne => ?_⟩
    exact hrw.resolveAndWire_left hu hdeclares.usable fun cause hno => hne cause (by rw [Except.error.inj hno])
  · simp only at hi
    have hfinish := Runs.of_eq hi
    obtain ⟨rfl, hdone⟩ := hdone (identifier, manifest) rfl
    refine ⟨by simp, project.planned, List.prefix_rfl, hfinish.finish_started hs hdone, ?_⟩
    intro before' prepared' h₁' w' h₂' hd' hw'
    obtain ⟨hprepared, rfl⟩ := Prod.mk.inj hd'
    obtain ⟨rfl, rfl⟩ := Prod.mk.inj (Except.ok.inj hprepared)
    obtain ⟨rfl, rfl⟩ := Prod.mk.inj (hw.symm.trans hw')
    refine ⟨hdeclares, by simp, hwiring, fun identifier' manifest' heq => ?_, fun place hu _ => ?_⟩
    · obtain ⟨hnames, hwired⟩ := hwired _ _ heq
      refine ⟨hnames, hwired, ?_, ?_⟩
      · rintro cause rfl
        exact hfinish.finish_ne_wiring cause rfl
      · rintro installed rfl
        rw [← (Prod.mk.inj (Except.ok.inj heq)).2]
        exact hfinish.finish_manifest
    · have hleft := hrw.resolveAndWire_left hu hdeclares.usable (by simp)
      exact hfinish.finish_keeps (hs.swift ▸ hu.kept .build) hleft

/-- A folder with nothing but a manifest. -/
def Host.ofManifest (t : Text) (swift : Subcommand → Run) : Host :=
  { Progress.start ⟨.real 1, .real 0⟩ [] with
    disk := ⟨[([], .folder), (["Package.swift".toList], .file (Encoding.encodeUtf8 t))]⟩
    here := []
    swift := swift
    calls := []
    replies := [] }

/-- The project in the current folder, with targets chosen beforehand. -/
def Project.inPlace (targets : List Text) (build : Bool) : Project where
  manifest := Path.ofText "Package.swift".toList
  lockfile := Path.ofText "Package.resolved".toList
  toolchain := ⟨Path.ofText ['.'], Toolchain.defaultExecutable, none⟩
  select := Selection.fixed targets
  build := build

lemma undisturbed_inPlace {t : Text} {swift : Subcommand → Run} {targets : List Text} {build : Bool}
    (h : ∀ subcommand, ∀ change ∈ (swift subcommand).changes, ¬change.place <+: ["Package.swift".toList]) :
    Undisturbed (.inPlace targets build) (Host.ofManifest t swift).machine ["Package.swift".toList] :=
  .of_folder (by rfl) (by rfl) (by decide) (by decide) h

def oneTarget : Text :=
  "Package(dependencies: [], targets: [.target(name: \"A\", dependencies: [])])".toList

def newLockfile : Text :=
  "\x7b\"pins\": [\x7b\"location\": \"https://e.com/n\", \"identity\": \"n\"\x7d]\x7d".toList

/-- Commands that end well; resolving writes the lockfile. -/
def Run.locking (lockfile : Text) (subcommand : Subcommand) : Run :=
  ⟨if subcommand = .resolve then [.put ["Package.resolved".toList] (.file (Encoding.encodeUtf8 lockfile))] else [],
    .exited 0 none⟩

lemma undisturbed_locking {t lockfile : Text} {targets : List Text} {build : Bool} :
    Undisturbed (.inPlace targets build) (Host.ofManifest t (Run.locking lockfile)).machine
      ["Package.swift".toList] := by
  refine undisturbed_inPlace fun subcommand change hmem => ?_
  rw [Run.locking] at hmem
  split_ifs at hmem
  · rw [List.mem_singleton.mp hmem, Change.place]
    decide
  · simp at hmem

theorem Project.install_leaves_installed :
    let project := Project.inPlace [['A']] true
    let reference : Reference := ⟨"https://e.com/n".toList, ['1']⟩
    let h := Host.ofManifest oneTarget (Run.locking newLockfile)
    let prepared : Prepared := ⟨("Package(dependencies: [\n    .package(url: \"https://e.com/n\", .exact(\"1\"))\n], " ++
      "targets: [.target(name: \"A\", dependencies: [])])").toList, [['A']]⟩
    let wired := ("Package(dependencies: [\n    .package(url: \"https://e.com/n\", .exact(\"1\"))\n], " ++
      "targets: [.target(name: \"A\", dependencies: [\"n\"])])").toList
    (∀ names, Quiet (project.select names)) ∧ Undisturbed project h.machine ["Package.swift".toList] ∧
      ∃ h₁ h₂ installed h', project.declare reference h = (.ok ([], prepared), h₁) ∧
        project.resolveAndWire reference prepared h₁ = (.ok (['n'], wired), h₂) ∧
        project.install reference h = (.ok installed, h') ∧ installed.targets = [['A']] ∧
        project.Declares reference h [] prepared ∧
        project.Names h.machine prepared.manifest reference.url ['n'] ∧
        h'.disk.get? ["Package.swift".toList] = some (.file (Encoding.encodeUtf8 wired)) := by
  intro project reference h prepared wired
  have hselect : ∀ names, Quiet (project.select names) := Selection.fixed_quiet _
  have hu : Undisturbed project h.machine ["Package.swift".toList] := undisturbed_locking
  have hdeclare : (project.declare reference h).1 = .ok ([], prepared) := by decide +kernel
  have hwire : (project.resolveAndWire reference prepared (project.declare reference h).2).1 = .ok (['n'], wired) := by
    decide +kernel
  have htargets : (project.install reference h).1.toOption.map (·.targets) = some [['A']] := by decide +kernel
  obtain ⟨installed, hok, hinstalled⟩ := Option.map_eq_some_iff.mp htargets
  have hi : project.install reference h = (.ok installed, (project.install reference h).2) :=
    Prod.ext (toOption_eq_some.mp hok) rfl
  obtain ⟨-, started, -, -, hleft⟩ := Project.install_leaves hselect hi
  obtain ⟨hdeclares, -, -, hnames, hplace⟩ := hleft _ _ _ _ _ (Prod.ext hdeclare rfl) (Prod.ext hwire rfl)
  have hfile := hplace _ hu (by simp)
  rw [textLeft] at hfile
  exact ⟨hselect, hu, _, _, installed, _, Prod.ext hdeclare rfl, Prod.ext hwire rfl, hi, hinstalled, hdeclares,
    (hnames _ _ rfl).1, hfile⟩

end PackageInstaller
