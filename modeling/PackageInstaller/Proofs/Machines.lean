import PackageInstaller.Install
import PackageInstaller.Proofs.Disks

/-! What actions do to the machine that they run on, whatever they log and whatever is said to the user. -/

namespace PackageInstaller

/-- A host without what its user sees and says. -/
structure Machine where
  disk : Disk
  here : Place
  swift : Subcommand → Run
  calls : List Call
  overflow : Scanning → Option Text
  removal : Option Removal

def Host.machine (h : Host) : Machine := ⟨h.disk, h.here, h.swift, h.calls, h.overflow, h.removal⟩

/-- On some host that has the machine `m`, the action ends with `r` and leaves the machine as `m'`. -/
def Runs {α : Type} (x : Action α) (m : Machine) (r : Except Failure α) (m' : Machine) : Prop :=
  ∃ h h', h.machine = m ∧ x h = (r, h') ∧ h'.machine = m'

/-- The action leaves every machine as it is. -/
def Quiet {α : Type} (x : Action α) : Prop := ∀ h, (x h).2.machine = h.machine

lemma Selection.fixed_quiet (targets names : List Text) : Quiet (fixed targets names) := fun _ => rfl

lemma Selection.interactive_quiet (names : List Text) : Quiet (interactive names) := by
  intro h
  rw [interactive]
  split <;> rfl

namespace Quiet

variable {α β : Type} {x : Action α}

lemma pure (a : α) : Quiet (Pure.pure a : Action α) := fun _ => rfl

lemma onProgress (f : Progress → Progress) : Quiet (Action.onProgress f) := fun _ => rfl

lemma ofAttempt {ε : Type} (f : ε → Failure) (attempt : Attempt ε α) : Quiet (Action.ofAttempt f attempt) :=
  fun _ => rfl

lemma bind {f : α → Action β} (hx : Quiet x) (hf : ∀ a, Quiet (f a)) : Quiet (x >>= f) := by
  intro h
  have hh := hx h
  rw [Action.bind_run]
  rcases hr : x h with ⟨e | a, h₁⟩ <;> rw [hr] at hh
  · exact hh
  · exact (hf a h₁).trans hh

lemma phase {name : Text} {body : Nat → Action α} (hbody : ∀ position, Quiet (body position)) :
    Quiet (Action.phase name body) :=
  fun h => hbody _ { h with toProgress := (h.toProgress.enter name).2 }

lemma descend (scanning : Scanning) (begun : Bool) : Quiet (Action.descend scanning begun) := by
  intro h
  rw [Action.descend]
  split <;> rfl

lemma read (path : Path) : Quiet (ManifestFile.read path) := by
  intro h
  rw [ManifestFile.read]
  split_ifs <;> rfl

lemma readPins (path : Path) (missingOk : Bool) : Quiet (Lockfile.readPins path missingOk) := fun _ => rfl

end Quiet

instance : LawfulMonad Action := LawfulMonad.mk' Action
  (fun x => funext fun h => by
    change (x >>= fun a => pure a) h = x h
    rw [Action.bind_run]
    rcases x h with ⟨_ | _, _⟩ <;> rfl)
  (fun _ _ => rfl)
  (fun x f g => funext fun h => by
    simp only [Action.bind_run]
    rcases x h with ⟨_ | _, _⟩ <;> rfl)

namespace Lockfile

/-- Why a lockfile cannot be made use of. -/
inductive Unread (d : Disk) (here : Place) (path : Path) : Failure → Prop where
  | project {cause : ProjectError} (h : cause.isReported = true) : Unread d here path (.project cause)
  | lockfile (cause : LockfileError) : Unread d here path (.lockfile cause)
  | path (h : path.isUsable = false) : Unread d here path .invalidPath
  | bytes {bytes : Bytes} {cause : DecodingError} (hread : d.read here path = .ok bytes)
    (h : textOfBytes bytes = .error cause) : Unread d here path (.undecodable cause)
  | limits {bytes : Bytes} {t : Text} {cause : Json.ReadError} (hread : d.read here path = .ok bytes)
    (ht : textOfBytes bytes = .ok t) (h : Json.readFile t = .error cause)
    (hflaw : cause.flaw.isSyntax = false) : Unread d here path (.beyondLimits cause)

variable {d : Disk} {here : Place} {path : Path} {e : Failure}

lemma Unread.of_pins {missingOk : Bool} (h : (pinsAt d here path missingOk).outcome = .error e) :
    Unread d here path e := by
  rw [pinsAt] at h
  cases husable : path.isUsable with
  | false =>
    rw [husable] at h
    obtain rfl := Except.error.inj h
    exact .path husable
  | true =>
    rw [husable] at h
    simp only [Bool.not_true, Bool.false_eq_true, if_false] at h
    split at h
    · split_ifs at h
      obtain rfl := Except.error.inj h
      exact .project rfl
    · obtain rfl := Except.error.inj h
      exact .project rfl
    · rename_i bytes hread
      split at h
      · rename_i cause hbytes
        obtain rfl := Except.error.inj h
        exact .bytes hread hbytes
      · rename_i t ht
        rw [Attempt.ofExcept_outcome, pinsOfText] at h
        split at h
        · rename_i cause hjson
          obtain rfl := Except.error.inj h
          split_ifs with hflaw
          · exact .lockfile _
          · exact .limits hread ht hjson (by simpa using hflaw)
        · rename_i json hjson
          cases hpins : pinsOf json with
          | ok pins => simp [hpins, Except.mapError] at h
          | error fault =>
            rw [hpins] at h
            obtain rfl := Except.error.inj h
            exact .lockfile _

lemma Unread.of_name {url : Text} (h : (nameAt d here path url).outcome = .error e) : Unread d here path e := by
  rw [nameAt, Attempt.bind_outcome] at h
  cases hpins : (pinsAt d here path false).outcome with
  | error cause =>
    rw [hpins] at h
    obtain rfl := Except.error.inj h
    exact .of_pins hpins
  | ok pins =>
    rw [hpins] at h
    simp only [Except.bind] at h
    split at h
    · obtain rfl := Except.error.inj h
      exact .lockfile _
    · simp at h

lemma Unread.ne_wiring (h : Unread d here path e) (cause : Manifest.WiringError) : e ≠ .wiring cause := by
  rintro rfl
  cases h

end Lockfile

/-- How a write fails, and the machine then. A file whose text has no bytes is left empty. -/
inductive Unwritten (path : Path) (halves : List Char) (m : Machine) : Failure → Machine → Prop where
  | path (h : path.isUsable = false) : Unwritten path halves m .invalidPath m
  | file (cause : FileError) : Unwritten path halves m (.project (.unwritable path (.file cause))) m
  | text {t : Text} {cause : EncodingError} {disk : Disk} (h : Encoding.unencodable? halves t = some cause)
    (hdisk : m.disk.write m.here path [] = .ok disk) :
    Unwritten path halves m (.project (.unwritable path (.unencodable cause))) { m with disk := disk }

lemma Encoding.unencodable?_nil (t : Text) : unencodable? [] t = none := by
  have hfound : ∀ u : Text, u.takeWhile ([] : List Char).elem = [] := fun u => by cases u <;> rfl
  simp only [unencodable?, hfound, List.isEmpty_nil, if_true]

namespace Unwritten

variable {path : Path} {halves : List Char} {m m' : Machine} {e : Failure}

lemma unchanged (h : Unwritten path [] m e m') : m' = m := by
  cases h with
  | text h _ => simp [Encoding.unencodable?_nil] at h
  | _ => rfl

lemma machine (h : Unwritten path halves m e m') : ∃ disk, m' = { m with disk := disk } := by
  cases h with
  | text _ _ => exact ⟨_, rfl⟩
  | _ => exact ⟨m.disk, rfl⟩

lemma unwritable (h : Unwritten path halves m e m') (husable : path.isUsable = true) :
    ∃ cause, e = .project (.unwritable path cause) := by
  cases h with
  | path h => simp [husable] at h
  | _ => exact ⟨_, rfl⟩

lemma ne_wiring (h : Unwritten path halves m e m') (cause : Manifest.WiringError) : e ≠ .wiring cause := by
  rintro rfl
  cases h

end Unwritten

/-- How the removal of earlier builds fails, and the machine then. -/
inductive Uncleaned (toolchain : Toolchain) (m : Machine) : Failure → Machine → Prop where
  | path (h : m.disk.locate m.here toolchain.buildFolder = .error .nameTooLong) :
    Uncleaned toolchain m (.refused (FileError.message ⟨.nameTooLong, toolchain.buildFolder⟩).toList) m
  | file {bytes : Bytes} (h : m.disk.at? m.here toolchain.buildFolder = some (.file bytes)) :
    Uncleaned toolchain m (.buildNotFolder toolchain.buildFolder) m
  | folder {place : Place} {removal : Removal} (h : m.disk.locate m.here toolchain.buildFolder = .ok place)
    (hremoval : m.removal = some removal) : Uncleaned toolchain m (.refused removal.message)
      { m with disk := (removal.gone.filter place.isPrefixOf).foldl Disk.erase m.disk }

namespace Runs

variable {α β : Type} {x : Action α} {f : α → Action β} {m m' : Machine} {r : Except Failure α}
  {s : Except Failure β}

lemma of_eq {h h' : Host} (hx : x h = (r, h')) : Runs x h.machine r h'.machine := ⟨h, h', rfl, hx, rfl⟩

/-- Either the first action fails, or the second runs where the first one ended. -/
lemma bind (h : Runs (x >>= f) m s m') : (∃ e, Runs x m (.error e) m' ∧ s = .error e) ∨
    ∃ a m₁, Runs x m (.ok a) m₁ ∧ Runs (f a) m₁ s m' := by
  obtain ⟨h₀, h', rfl, hx, rfl⟩ := h
  rw [Action.bind_run] at hx
  rcases hr : x h₀ with ⟨e | a, h₁⟩
  · rw [hr] at hx
    obtain ⟨rfl, rfl⟩ := Prod.mk.inj hx
    exact .inl ⟨e, of_eq hr, rfl⟩
  · rw [hr] at hx
    exact .inr ⟨a, h₁.machine, of_eq hr, of_eq hx⟩

lemma pure {a : α} (h : Runs (pure a) m r m') : r = .ok a ∧ m' = m := by
  obtain ⟨h₀, h', rfl, hx, rfl⟩ := h
  obtain ⟨rfl, rfl⟩ := Prod.mk.inj hx
  exact ⟨rfl, rfl⟩

lemma fail {e : Failure} (h : Runs (Action.fail e : Action α) m r m') : r = .error e ∧ m' = m := by
  obtain ⟨h₀, h', rfl, hx, rfl⟩ := h
  obtain ⟨rfl, rfl⟩ := Prod.mk.inj hx
  exact ⟨rfl, rfl⟩

lemma quiet (hq : Quiet x) (h : Runs x m r m') : m' = m := by
  obtain ⟨h₀, h', rfl, hx, rfl⟩ := h
  have := hq h₀
  rwa [hx] at this

lemma onProgress {f : Progress → Progress} {r : Except Failure Unit} (h : Runs (Action.onProgress f) m r m') :
    r = .ok () ∧ m' = m := by
  obtain ⟨h₀, h', rfl, hx, rfl⟩ := h
  obtain ⟨rfl, rfl⟩ := Prod.mk.inj hx
  exact ⟨rfl, rfl⟩

lemma ofAttempt {ε : Type} {f : ε → Failure} {attempt : Attempt ε α}
    (h : Runs (Action.ofAttempt f attempt) m r m') : r = attempt.outcome.mapError f ∧ m' = m := by
  obtain ⟨h₀, h', rfl, hx, rfl⟩ := h
  obtain ⟨rfl, rfl⟩ := Prod.mk.inj hx
  exact ⟨rfl, rfl⟩

lemma phase {name : Text} {body : Nat → Action α} (h : Runs (Action.phase name body) m r m') :
    ∃ position, Runs (body position) m r m' := by
  obtain ⟨h₀, h', rfl, hx, rfl⟩ := h
  rw [Action.phase] at hx
  simp only at hx
  obtain ⟨rfl, rfl⟩ := Prod.mk.inj hx
  exact ⟨(h₀.toProgress.enter name).1,
    { h₀ with toProgress := (h₀.toProgress.enter name).2 }, _, rfl, rfl, rfl⟩

lemma onProgress_bind {g : Progress → Progress} {f : Unit → Action β} (h : Runs (Action.onProgress g >>= f) m s m') :
    Runs (f ()) m s m' := by
  rcases h.bind with ⟨e, hg, -⟩ | ⟨⟨⟩, m₁, hg, hf⟩
  · obtain ⟨hno, -⟩ := hg.onProgress
    simp at hno
  · obtain ⟨-, rfl⟩ := hg.onProgress
    exact hf

lemma phase_bind {name : Text} {body : Nat → Action α} (h : Runs (Action.phase name body >>= f) m s m') :
    (∃ e position, Runs (body position) m (.error e) m' ∧ s = .error e) ∨
      ∃ a m₁ position, Runs (body position) m (.ok a) m₁ ∧ Runs (f a) m₁ s m' := by
  rcases h.bind with ⟨e, hb, hs⟩ | ⟨a, m₁, hb, hf⟩
  · obtain ⟨position, hb⟩ := hb.phase
    exact .inl ⟨e, position, hb, hs⟩
  · obtain ⟨position, hb⟩ := hb.phase
    exact .inr ⟨a, m₁, position, hb, hf⟩

lemma read {path : Path} {r : Except Failure Text} (h : Runs (ManifestFile.read path) m r m') :
    m' = m ∧ ((path.isUsable = true ∧ r = (ManifestFile.textOf m.disk m.here path).mapError .project) ∨
      (path.isUsable = false ∧ r = .error .invalidPath)) := by
  obtain ⟨h₀, h', rfl, hx, rfl⟩ := h
  rw [ManifestFile.read] at hx
  split_ifs at hx with hu
  · obtain ⟨rfl, rfl⟩ := Prod.mk.inj hx
    exact ⟨rfl, .inl ⟨hu, rfl⟩⟩
  · obtain ⟨rfl, rfl⟩ := Prod.mk.inj hx
    exact ⟨rfl, .inr ⟨by simpa using hu, rfl⟩⟩

lemma write {path : Path} {t : Text} {halves : List Char} {r : Except Failure Unit}
    (h : Runs (ManifestFile.writeWith halves path t) m r m') :
    (r = .ok () ∧ ∃ disk, m.disk.write m.here path (Encoding.encodeUtf8 t) = .ok disk ∧
      m' = { m with disk := disk }) ∨
    ∃ e, r = .error e ∧ Unwritten path halves m e m' := by
  obtain ⟨h₀, h', rfl, hx, rfl⟩ := h
  rw [ManifestFile.writeWith] at hx
  split_ifs at hx with hu
  · simp only at hx
    cases hobstacle : Encoding.unencodable? halves t with
    | none =>
      simp only [hobstacle, Option.isSome_none, Bool.false_eq_true, if_false] at hx
      split at hx
      · obtain ⟨rfl, rfl⟩ := Prod.mk.inj hx
        exact .inr ⟨_, rfl, .file _⟩
      · rename_i disk hdisk
        obtain ⟨rfl, rfl⟩ := Prod.mk.inj hx
        exact .inl ⟨rfl, disk, hdisk, rfl⟩
    | some cause =>
      simp only [hobstacle, Option.isSome_some, if_true] at hx
      split at hx
      · obtain ⟨rfl, rfl⟩ := Prod.mk.inj hx
        exact .inr ⟨_, rfl, .file _⟩
      · rename_i disk hdisk
        obtain ⟨rfl, rfl⟩ := Prod.mk.inj hx
        exact .inr ⟨_, rfl, .text hobstacle hdisk⟩
  · obtain ⟨rfl, rfl⟩ := Prod.mk.inj hx
    exact .inr ⟨_, rfl, .path (by simpa using hu)⟩

lemma mapError_id {ε : Type} (r : Except ε α) : r.mapError id = r := by
  cases r <;> rfl

lemma readPins {path : Path} {missingOk : Bool} {r : Except Failure (List Lockfile.Pin)}
    (h : Runs (Lockfile.readPins path missingOk) m r m') :
    m' = m ∧ r = (Lockfile.pinsAt m.disk m.here path missingOk).outcome := by
  obtain ⟨h₀, h', rfl, hx, rfl⟩ := h
  obtain ⟨rfl, rfl⟩ := Prod.mk.inj hx
  exact ⟨rfl, mapError_id _⟩

lemma packageNameFor {path : Path} {url : Text} {r : Except Failure Text}
    (h : Runs (Lockfile.packageNameFor path url) m r m') :
    m' = m ∧ r = (Lockfile.nameAt m.disk m.here path url).outcome := by
  obtain ⟨h₀, h', rfl, hx, rfl⟩ := h
  obtain ⟨rfl, rfl⟩ := Prod.mk.inj hx
  exact ⟨rfl, mapError_id _⟩

variable {toolchain : Toolchain}

lemma descend {scanning : Scanning} {begun : Bool} {r : Except Failure Unit}
    (h : Runs (Action.descend scanning begun) m r m') :
    m' = m ∧ (r = .ok () ∨ ∃ message, m.overflow scanning = some message ∧ r = .error (.refused message)) := by
  obtain ⟨h₀, h', rfl, hx, rfl⟩ := h
  rw [Action.descend] at hx
  split at hx
  · obtain ⟨rfl, rfl⟩ := Prod.mk.inj hx
    exact ⟨rfl, .inl rfl⟩
  · rename_i message hmessage
    obtain ⟨rfl, rfl⟩ := Prod.mk.inj hx
    exact ⟨rfl, .inr ⟨message, (Option.ite_none_right_eq_some.mp hmessage).2, rfl⟩⟩

lemma inspect {g : Host → α} (h : Runs (Action.inspect g) m r m') :
    m' = m ∧ ∃ h₀ : Host, h₀.machine = m ∧ r = .ok (g h₀) := by
  obtain ⟨h₀, h', rfl, hx, rfl⟩ := h
  obtain ⟨rfl, rfl⟩ := Prod.mk.inj hx
  exact ⟨rfl, h₀, rfl, rfl⟩

/-- What earlier builds left is gone, or its removal fails. -/
lemma clean {r : Except Failure Unit} (h : Runs toolchain.clean m r m') :
    (r = .ok () ∧ m'.disk.at? m.here toolchain.buildFolder = none ∧ (m' = m ∨
      ∃ place, m.disk.locate m.here toolchain.buildFolder = .ok place ∧
        m' = { m with disk := m.disk.erase place })) ∨
    ∃ e, r = .error e ∧ Uncleaned toolchain m e m' := by
  obtain ⟨h₀, h', rfl, hx, rfl⟩ := h
  rw [Toolchain.clean] at hx
  change (_ ∧ _ ∧ (_ ∨ ∃ place, h₀.disk.locate h₀.here toolchain.buildFolder = .ok place ∧ _)) ∨ _
  cases hl : h₀.disk.locate h₀.here toolchain.buildFolder with
  | error fault =>
    rw [hl] at hx
    cases fault with
    | nameTooLong =>
      obtain ⟨rfl, rfl⟩ := Prod.mk.inj hx
      exact .inr ⟨_, rfl, .path hl⟩
    | _ =>
      obtain ⟨rfl, rfl⟩ := Prod.mk.inj hx
      exact .inl ⟨rfl, Disk.at?_of_error hl, .inl rfl⟩
  | ok place =>
    rw [hl] at hx
    simp only at hx
    cases hg : h₀.disk.get? place with
    | none =>
      rw [hg] at hx
      obtain ⟨rfl, rfl⟩ := Prod.mk.inj hx
      exact .inl ⟨rfl, (Disk.at?_of_ok hl).trans hg, .inl rfl⟩
    | some entry =>
      rw [hg] at hx
      cases entry with
      | file bytes =>
        obtain ⟨rfl, rfl⟩ := Prod.mk.inj hx
        exact .inr ⟨_, rfl, .file ((Disk.at?_of_ok hl).trans hg)⟩
      | folder =>
        simp only at hx
        split at hx
        · obtain ⟨rfl, rfl⟩ := Prod.mk.inj hx
          exact .inl ⟨rfl, Disk.at?_erase hl, .inr ⟨place, rfl, rfl⟩⟩
        · rename_i removal hremoval
          obtain ⟨rfl, rfl⟩ := Prod.mk.inj hx
          exact .inr ⟨_, rfl, .folder hl hremoval⟩

lemma run {subcommand : Subcommand} {r : Except Failure Unit} (h : Runs (toolchain.run subcommand) m r m') :
    m' = { m with
      disk := (m.swift subcommand).changes.foldl Disk.apply m.disk
      calls := m.calls ++ [toolchain.callOf (toolchain.command subcommand) m.disk] } ∧
    ((r = .ok () ∧ ∃ report, (m.swift subcommand).ending = .exited 0 report) ∨
      ∃ failure, r = .error failure ∧ toolchain.endingError? (toolchain.command subcommand)
        (m.swift subcommand).ending = some failure) := by
  obtain ⟨h₀, h', rfl, hx, rfl⟩ := h
  rw [Toolchain.run] at hx
  simp only at hx
  split at hx
  · rename_i failure hfailure
    obtain ⟨rfl, rfl⟩ := Prod.mk.inj hx
    exact ⟨rfl, .inr ⟨failure, rfl, hfailure⟩⟩
  · rename_i hnone
    obtain ⟨rfl, rfl⟩ := Prod.mk.inj hx
    refine ⟨rfl, .inl ⟨rfl, ?_⟩⟩
    change ∃ report, (h₀.swift subcommand).ending = .exited 0 report
    cases hend : (h₀.swift subcommand).ending <;> rw [hend] at hnone
    all_goals simp [Toolchain.endingError?] at hnone
    subst hnone
    exact ⟨_, rfl⟩

lemma run_error {subcommand : Subcommand} {e : Failure} (h : Runs (toolchain.run subcommand) m (.error e) m') :
    (∃ cause, e = .toolchain cause) ∨
      (∃ message, (m.swift subcommand).ending = .refused message ∧ e = .refused message) ∨
        ∃ cause, (m.swift subcommand).ending = .undecodable cause ∧ e = .undecodable cause := by
  obtain ⟨-, ⟨hno, -⟩ | ⟨failure, he, hend⟩⟩ := h.run
  · simp at hno
  obtain rfl := Except.error.inj he
  cases hs : (m.swift subcommand).ending with
  | exited status report =>
    rw [hs, Toolchain.endingError?] at hend
    split_ifs at hend
    exact .inl ⟨_, (Option.some.inj hend).symm⟩
  | undecodable cause =>
    rw [hs] at hend
    exact .inr (.inr ⟨cause, rfl, (Option.some.inj hend).symm⟩)
  | timedOut =>
    rw [hs] at hend
    exact .inl ⟨_, (Option.some.inj hend).symm⟩
  | notFound message =>
    rw [hs] at hend
    exact .inl ⟨_, (Option.some.inj hend).symm⟩
  | refused message =>
    rw [hs] at hend
    exact .inr (.inl ⟨message, rfl, (Option.some.inj hend).symm⟩)

end Runs

end PackageInstaller
