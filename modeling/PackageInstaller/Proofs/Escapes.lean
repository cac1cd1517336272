import PackageInstaller.CommandLine
import PackageInstaller.Proofs.Leavings

/-! Which failures of an installation reach the user as messages. All do but those that come from bytes that
are no text of the expected encoding, a text that has no bytes in it, a lockfile beyond what is read, a folder of
the builds that is none or is not to be removed, a command that must not be started, a scan that nests too many
calls and a selection that was broken off. -/

namespace PackageInstaller

open Manifest

/-- The failures that are reported to nobody, by what is on the machine when they occur. -/
inductive Escapes (project : Project) (url : Text) (m : Machine) : Failure → Prop where
  | path (h : project.manifest.isUsable = false ∨ project.lockfile.isUsable = false) :
    Escapes project url m .invalidPath
  | lockfile {bytes : Bytes} {cause : DecodingError} (hread : m.disk.read m.here project.lockfile = .ok bytes)
    (h : textOfBytes bytes = .error cause) : Escapes project url m (.undecodable cause)
  | limits {bytes : Bytes} {t : Text} {cause : Json.ReadError}
    (hread : m.disk.read m.here project.lockfile = .ok bytes) (ht : textOfBytes bytes = .ok t)
    (h : Json.readFile t = .error cause) (hflaw : cause.flaw.isSyntax = false) :
    Escapes project url m (.beyondLimits cause)
  | overflow {scanning : Scanning} {message : Text} (h : m.overflow scanning = some message) :
    Escapes project url m (.refused message)
  | buildPath (h : m.disk.locate m.here project.toolchain.buildFolder = .error .nameTooLong) :
    Escapes project url m (.refused (FileError.message ⟨.nameTooLong, project.toolchain.buildFolder⟩).toList)
  | build {bytes : Bytes} (h : m.disk.at? m.here project.toolchain.buildFolder = some (.file bytes)) :
    Escapes project url m (.buildNotFolder project.toolchain.buildFolder)
  | removal {removal : Removal} (h : m.removal = some removal) : Escapes project url m (.refused removal.message)
  | refused {subcommand : Subcommand} {message : Text} (h : (m.swift subcommand).ending = .refused message) :
    Escapes project url m (.refused message)
  | output {subcommand : Subcommand} {cause : DecodingError}
    (h : (m.swift subcommand).ending = .undecodable cause) : Escapes project url m (.undecodable cause)
  /-- The name in the lockfile holds half of a surrogate pair, and the manifest is left empty. -/
  | name {m₀ : Machine} {disk : Disk} {t : Text} {cause : EncodingError}
    (h : Encoding.unencodable? (Lockfile.halvesAt m₀.disk m₀.here project.lockfile url) t = some cause)
    (hdisk : m₀.disk.write m₀.here project.manifest [] = .ok disk) (hm : m = { m₀ with disk := disk }) :
    Escapes project url m (.project (.unwritable project.manifest (.unencodable cause)))
  | selection {names : List Text} {m₀ : Machine} {e : Failure}
    (h : Runs (project.select names) m₀ (.error e) m) (hsilent : e.isReported = false) : Escapes project url m e

/-- Each failure of the action is reported, or is one of those that are not. -/
def Reports (project : Project) (url : Text) {α : Type} (x : Action α) : Prop :=
  ∀ m e m', Runs x m (.error e) m' → e.isReported = true ∨ Escapes project url m' e

variable {project : Project} {url : Text} {α β : Type}

lemma Escapes.not_reported {m : Machine} {e : Failure} (h : Escapes project url m e) : e.isReported = false := by
  cases h with
  | selection _ hsilent => exact hsilent
  | _ => rfl

lemma ManifestFile.textOf_reported {d : Disk} {here : Place} {path : Path} {cause : ProjectError}
    (h : textOf d here path = .error cause) : cause.isReported = true := by
  rw [textOf] at h
  split at h
  · rw [← Except.error.inj h]
    rfl
  · rw [← Except.error.inj h]
    rfl
  · rename_i bytes hread
    cases ht : textOfBytes bytes with
    | ok t => simp [ht, Except.mapError] at h
    | error e =>
      rw [ht] at h
      rw [← Except.error.inj h]
      rfl

namespace Reports

lemma bind {x : Action α} {f : α → Action β} (hx : Reports project url x) (hf : ∀ a, Reports project url (f a)) :
    Reports project url (x >>= f) := by
  intro m e m' h
  rcases h.bind with ⟨e', hrun, he⟩ | ⟨a, m₁, -, hrest⟩
  · rw [Except.error.inj he]
    exact hx m e' m' hrun
  · exact hf a m₁ e m' hrest

lemma phase {name : Text} {body : Nat → Action α} (h : ∀ position, Reports project url (body position)) :
    Reports project url (Action.phase name body) := by
  intro m e m' hrun
  obtain ⟨position, hbody⟩ := hrun.phase
  exact h position m e m' hbody

lemma pure (a : α) : Reports project url (pure a : Action α) := by
  intro m e m' h
  obtain ⟨hno, -⟩ := h.pure
  simp at hno

lemma onProgress (f : Progress → Progress) : Reports project url (Action.onProgress f) := by
  intro m e m' h
  obtain ⟨hno, -⟩ := h.onProgress
  simp at hno

lemma ofAttempt {attempt : Attempt EditError α}
    (h : ∀ e, attempt.outcome = .error e → (Failure.edit e).isReported = true) :
    Reports project url (Action.ofAttempt Failure.edit attempt) := by
  intro m e m' hrun
  obtain ⟨he, -⟩ := hrun.ofAttempt
  cases hout : attempt.outcome with
  | ok a => simp [hout, Except.mapError] at he
  | error cause =>
    rw [hout] at he
    rw [Except.error.inj he]
    exact .inl (h cause hout)

lemma descend (scanning : Scanning) (begun : Bool) : Reports project url (Action.descend scanning begun) := by
  intro m e m' h
  obtain ⟨rfl, hno | ⟨message, hmessage, he⟩⟩ := h.descend
  · simp at hno
  · rw [Except.error.inj he]
    exact .inr (.overflow hmessage)

lemma read : Reports project url (ManifestFile.read project.manifest) := by
  intro m e m' h
  rcases h.read with ⟨-, ⟨-, he⟩ | ⟨husable, he⟩⟩
  · cases ht : ManifestFile.textOf m.disk m.here project.manifest with
    | ok t => simp [ht, Except.mapError] at he
    | error cause =>
      rw [ht] at he
      rw [Except.error.inj he]
      exact .inl (ManifestFile.textOf_reported ht)
  · rw [Except.error.inj he]
    exact .inr (.path (.inl husable))

lemma write (t : Text) : Reports project url (ManifestFile.write project.manifest t) := by
  intro m e m' h
  cases Runs.unwritten h with
  | path husable => exact .inr (.path (.inl husable))
  | file cause => exact .inl rfl
  | text hcause hdisk => simp [Encoding.unencodable?_nil] at hcause

lemma unread {m : Machine} {e : Failure} (h : Lockfile.Unread m.disk m.here project.lockfile e) :
    e.isReported = true ∨ Escapes project url m e := by
  cases h with
  | project h => exact .inl h
  | lockfile cause => exact .inl rfl
  | path h => exact .inr (.path (.inr h))
  | bytes hread h => exact .inr (.lockfile hread h)
  | limits hread ht h hflaw => exact .inr (.limits hread ht h hflaw)

lemma readPins (missingOk : Bool) : Reports project url (Lockfile.readPins project.lockfile missingOk) := by
  intro m e m' h
  obtain ⟨rfl, he⟩ := h.readPins
  exact unread (.of_pins he.symm)

lemma clean : Reports project url project.toolchain.clean := by
  intro m e m' h
  rcases h.clean with ⟨hno, -⟩ | ⟨e', he, huncleaned⟩
  · simp at hno
  rw [Except.error.inj he]
  cases huncleaned with
  | path hlong => exact .inr (.buildPath hlong)
  | file hat => exact .inr (.build hat)
  | folder _ hremoval => exact .inr (.removal hremoval)

lemma run (subcommand : Subcommand) : Reports project url (project.toolchain.run subcommand) := by
  intro m e m' h
  obtain ⟨rfl, -⟩ := h.run
  rcases h.run_error with ⟨cause, rfl⟩ | ⟨message, hrefused, rfl⟩ | ⟨cause, houtput, rfl⟩
  · exact .inl rfl
  · exact .inr (.refused hrefused)
  · exact .inr (.output houtput)

lemma select (names : List Text) : Reports project url (project.select names) := by
  intro m e m' h
  cases he : e.isReported with
  | true => exact .inl rfl
  | false => exact .inr (.selection h he)

lemma readFiles : Reports project url project.readFiles :=
  read.bind fun _ => (readPins true).bind fun _ => pure _

lemma prepareIn (t : Text) (reference : Reference) (position : Nat) :
    Reports project url (project.prepareIn t reference position) := by
  refine bind ((descend _ _).bind fun _ => (ofAttempt fun e he => ?_).bind fun names =>
      (select names).bind fun selected => (descend _ _).bind fun _ => ofAttempt fun e he => ?_)
    fun prepared => (onProgress _).bind fun _ => pure _
  · simp [Failure.isReported, selectableTargets_error he]
  · rcases declareFor_error he with h | h | h <;> simp [Failure.isReported, h]

lemma resolve : Reports project url project.resolve :=
  clean.bind fun _ => (run _).bind fun _ => run _

lemma wireTargets {prepared : Prepared} {identifier : Text} {m m' : Machine} {e : Failure}
    (h : Runs (project.wireTargets prepared identifier (Lockfile.halvesAt m.disk m.here project.lockfile url)) m
      (.error e) m') : e.isReported = true ∨ Escapes project url m' e := by
  rcases h.wireTargets with ⟨t, disk, -, hno, -⟩ | ⟨cause, disk, -, he, -⟩ | ⟨message, hmessage, he, rfl⟩ |
    ⟨cause, he, hunwritten⟩
  · simp at hno
  · rw [Except.error.inj he]
    exact .inl rfl
  · rw [Except.error.inj he]
    exact .inr (.overflow hmessage)
  · rw [Except.error.inj he]
    cases hunwritten with
    | path husable => exact .inr (.path (.inl husable))
    | file cause => exact .inl rfl
    | text hcause hdisk => exact .inr (.name hcause hdisk rfl)

lemma wireIn (prepared : Prepared) (position : Nat) :
    Reports project url (project.wireIn prepared url position) := by
  intro m e m' h
  rcases h.wireIn with ⟨e', he, rfl, hname⟩ | ⟨identifier, r, -, hwire, hr⟩
  · rw [Except.error.inj he]
    exact unread (.of_name hname)
  · cases r with
    | ok t => simp [Except.map] at hr
    | error e' =>
      rw [Except.error.inj hr]
      exact wireTargets hwire

lemma buildOrSkip : Reports project url project.buildOrSkip := by
  intro m e m' h
  rcases h.buildOrSkip with ⟨-, hno, -⟩ | ⟨-, hrun⟩
  · simp at hno
  · exact run _ m e m' hrun

lemma install (reference : Reference) : Reports project reference.url (project.install reference) :=
  (phase fun _ => readFiles).bind fun _ => (phase (prepareIn _ reference)).bind fun _ => (write _).bind fun _ =>
    (phase fun _ => resolve).bind fun _ => (phase (wireIn _)).bind fun _ => buildOrSkip.bind fun _ =>
      (readPins false).bind fun _ => (onProgress _).bind fun _ => pure _

end Reports

def failure? {α : Type} : Except Failure α → Option Failure
  | .ok _ => none
  | .error e => some e

lemma failure?_eq_some {r : Except Failure α} {e : Failure} : failure? r = some e ↔ r = .error e := by
  cases r <;> simp [failure?]

/-- A line that begins the messages of a run that failed. -/
def Told (before after : List Printed) (line : Text) : Prop :=
  ∃ rest, after = before ++ ⟨.errors, Text.plain line ++ ['\n']⟩ :: rest

lemma CommandLine.endWithFailure_of_reported {h : Host} {e : Failure} (he : e.isReported = true) :
    (endWithFailure h e).status = 1 ∧ (endWithFailure h e).crash = none ∧
      Told h.printed (endWithFailure h e).host.printed (errorLine e.message) := by
  cases e with
  | wiring cause =>
    rw [endWithFailure]
    simp only
    split_ifs
    · exact ⟨rfl, rfl, [], rfl⟩
    · exact ⟨rfl, rfl, [_], List.append_assoc _ _ _⟩
  | edit cause =>
    rw [endWithFailure, if_pos he]
    · exact ⟨rfl, rfl, [], rfl⟩
    all_goals simp
  | project cause =>
    rw [endWithFailure, if_pos he]
    · exact ⟨rfl, rfl, [], rfl⟩
    all_goals simp
  | lockfile cause => exact ⟨rfl, rfl, [], rfl⟩
  | toolchain cause => exact ⟨rfl, rfl, [], rfl⟩
  | _ => simp [Failure.isReported] at he

/-- A name that holds half of a surrogate pair empties the manifest. -/
example :
    let project := Project.inPlace [['A']] true
    let lockfile := "\x7b\"pins\": [\x7b\"location\": \"https://e.com/n\", \"identity\": \"\\ud800\"\x7d]\x7d".toList
    let r := project.install ⟨"https://e.com/n".toList, ['1']⟩ (Host.ofManifest oneTarget (Run.locking lockfile))
    failure? r.1 = some (.project (.unwritable project.manifest (.unencodable ⟨122, [0xd800]⟩))) ∧
      r.2.disk.get? ["Package.swift".toList] = some (.file []) := by decide +kernel

end PackageInstaller
