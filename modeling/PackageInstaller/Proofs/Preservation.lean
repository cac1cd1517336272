import Mathlib.Data.List.Flatten
import PackageInstaller.Proofs.Additions
import PackageInstaller.Proofs.Installation

/-! What an installation leaves of the bytes of a manifest. The file is decoded, edited as a text and encoded
again, so it keeps all that the text keeps, and each line end is a line feed afterwards. -/

namespace PackageInstaller

open Manifest

lemma Encoding.return_mem_encodeUtf8 {t : Text} : 0x0D ∈ encodeUtf8 t ↔ '\r' ∈ t := by
  have hchar : ∀ c, 0x0D ∈ encodeChar c ↔ c = '\r' := fun c => by
    rw [mem_encodeChar (by decide)]
    refine ⟨fun h => ?_, fun h => by rw [h]; rfl⟩
    rw [← Char.ofNat_toNat c, h]
    rfl
  simp [encodeUtf8, hchar]

lemma Encoding.encodeUtf8_inj {t u : Text} (h : encodeUtf8 t = encodeUtf8 u) : t = u := by
  have hdecoded := congrArg decodeUtf8 h
  rw [decodeUtf8_encodeUtf8, decodeUtf8_encodeUtf8] at hdecoded
  exact Except.ok.inj hdecoded

/-- The bytes of a file come back from its text, unless there is a carriage return among them. -/
theorem encodeUtf8_textOfBytes {bytes : Bytes} {t : Text} (h : textOfBytes bytes = .ok t) :
    Encoding.encodeUtf8 t = bytes ↔ 0x0D ∉ bytes := by
  obtain ⟨u, hu, rfl⟩ := map_eq_ok.mp h
  have hbytes := Encoding.encodeUtf8_decodeUtf8 hu
  rw [← hbytes, Encoding.return_mem_encodeUtf8, ← Text.unifyLineEnds_eq_self]
  exact ⟨Encoding.encodeUtf8_inj, fun he => by rw [he]⟩

/-- Blanks between empty brackets apart, the bytes are among those after, and in their order. -/
def Survives (before after : Bytes) : Prop :=
  ∃ t kept, Encoding.encodeUtf8 t = before ∧ Text.Thinned t kept ∧ (Encoding.encodeUtf8 kept).Sublist after

/-- What an installation puts into a manifest. -/
def Addition (reference : Reference) (identifier p : Text) : Prop :=
  CarriesPackage reference p ∨ Carries (StringLiteral.encode identifier) p

lemma Addition.solid {reference : Reference} {identifier p : Text} (h : Addition reference identifier p) : Text.Solid p :=
  h.elim CarriesPackage.solid fun h => h.solid (encode_solid identifier)

lemma survives_of_extends {P : Text → Prop} {t u : Text} (h : Text.Extends P t u) (hP : ∀ p, P p → Text.Solid p) :
    Survives (Encoding.encodeUtf8 t) (Encoding.encodeUtf8 u) := by
  obtain ⟨kept, ht, hs⟩ := (h.grown hP).kept
  exact ⟨t, kept, rfl, ht, hs.flatMap Encoding.encodeChar⟩

variable {project : Project} {reference : Reference} {installed : Installed} {h h' : Host} {place : Place}
  {bytes : Bytes} {t u : Text} {names selected : List Text} {prepared : Prepared} {identifier m : Text}

lemma declared_and_wired_extends (hdeclared : (declareFor t reference names selected).outcome = .ok prepared)
    (hwired : (wire prepared.manifest identifier prepared.targets).outcome = .ok m) :
    Text.Extends (Addition reference identifier) t m := by
  obtain ⟨-, -, hadded⟩ := declareFor_eq_ok hdeclared
  exact ((addPackage_extends hadded).mono fun p => .inl).trans ((wireFrom_extends hwired).mono fun p => .inr)

lemma ManifestFile.read_eq (husable : project.manifest.isUsable = true)
    (hread : h.disk.read h.here project.manifest = .ok bytes) (ht : textOfBytes bytes = .ok t) :
    textOf h.disk h.here project.manifest = .ok t ∧ read project.manifest h = (.ok t, h) := by
  have htext : textOf h.disk h.here project.manifest = .ok t := by
    rw [textOf, hread]
    simp only [ht, Except.mapError]
  refine ⟨htext, ?_⟩
  rw [read, if_pos husable, htext]
  rfl

lemma ManifestFile.write_back (husable : project.manifest.isUsable = true)
    (hread : h.disk.read h.here project.manifest = .ok bytes) (t : Text) :
    ∃ h', write project.manifest t h = (.ok (), h') ∧
      ((∀ q, h'.disk.get? q = h.disk.get? q) ↔ Encoding.encodeUtf8 t = bytes) := by
  obtain ⟨place, hlocate, hfile⟩ := Disk.read_eq_ok.mp hread
  have hwrite : h.disk.write h.here project.manifest (Encoding.encodeUtf8 t) =
      .ok (h.disk.put place (.file (Encoding.encodeUtf8 t))) := by
    rw [Disk.write, hlocate]
    simp only [bind, Except.bind, hfile]
  have hwritten : write project.manifest t h = (.ok (), { h with
      toProgress := h.toProgress.tell [writtenEvent project.manifest t]
      disk := h.disk.put place (.file (Encoding.encodeUtf8 t)) }) := by
    rw [write, writeWith, if_pos husable]
    simp only [Encoding.unencodable?_nil, Option.isSome_none, Bool.false_eq_true, if_false, hwrite]
  refine ⟨_, hwritten, ?_⟩
  simp only
  constructor
  · intro hsame
    have hplace := hsame place
    rw [Disk.get?_put_self, hfile] at hplace
    exact Entry.file.inj (Option.some.inj hplace)
  · intro he q
    by_cases hq : q = place
    · rw [hq, Disk.get?_put_self, hfile, he]
    · exact Disk.get?_put_of_ne hq

/-- What is read from a manifest can be written back as it was, unless there is a carriage return in the file; and what an
installation adds to it apart, the manifest is left as it was read. -/
theorem Project.install_keeps (husable : project.manifest.isUsable = true)
    (hread : h.disk.read h.here project.manifest = .ok bytes) (hutf : Encoding.decodeUtf8 bytes = .ok u)
    (hselect : ∀ names, Quiet (project.select names)) :
    ∃ t, ManifestFile.read project.manifest h = (.ok t, h) ∧ (Encoding.encodeUtf8 t = bytes ↔ 0x0D ∉ bytes) ∧
      (∃ h', ManifestFile.write project.manifest t h = (.ok (), h') ∧
        ((∀ q, h'.disk.get? q = h.disk.get? q) ↔ 0x0D ∉ bytes)) ∧
      ∀ installed h' place, project.install reference h = (.ok installed, h') →
        Undisturbed project h.machine place → ∃ bytes', h'.disk.get? place = some (.file bytes') ∧
          bytes' = Encoding.encodeUtf8 installed.manifest ∧
          Text.Extends (Addition reference installed.identifier) t installed.manifest ∧
          Survives (Encoding.encodeUtf8 t) bytes' := by
  have ht := textOfBytes_eq hutf
  obtain ⟨htext, hr⟩ := ManifestFile.read_eq husable hread ht
  have hback := encodeUtf8_textOfBytes ht
  refine ⟨_, hr, hback, ?_, fun installed h' place hi hu => ?_⟩
  · obtain ⟨h', hw, hsame⟩ := ManifestFile.write_back husable hread (Text.unifyLineEnds u)
    exact ⟨h', hw, hsame.trans hback⟩
  · obtain ⟨before, prepared, after, ⟨-, -, t', names, ht', -, -, hdeclared⟩, -, hwired, -, -, -, hleft⟩ :=
      Project.install_eq_ok hselect hi
    obtain rfl := Except.ok.inj (htext.symm.trans ht')
    have hext := declared_and_wired_extends hdeclared hwired
    exact ⟨_, hleft place hu, rfl, hext, survives_of_extends hext fun p => Addition.solid⟩

theorem Project.install_keeps_accented :
    let project := Project.inPlace [['A']] false
    let reference : Reference := ⟨"https://e.com/n".toList, ['1']⟩
    let t := "// é\nPackage(dependencies: [ ], targets: [.target(name: \"A\", dependencies: [])])".toList
    let h := Host.ofManifest t (Run.locking newLockfile)
    (project.manifest.isUsable = true ∧ h.disk.read h.here project.manifest = .ok (Encoding.encodeUtf8 t) ∧
      Encoding.decodeUtf8 (Encoding.encodeUtf8 t) = .ok t ∧ (∀ names, Quiet (project.select names)) ∧
        Undisturbed project h.machine ["Package.swift".toList]) ∧
    (∃ h', ManifestFile.write project.manifest t h = (.ok (), h') ∧ ∀ q, h'.disk.get? q = h.disk.get? q) ∧
    ∃ installed h' bytes', project.install reference h = (.ok installed, h') ∧
      h'.disk.get? ["Package.swift".toList] = some (.file bytes') ∧ Survives (Encoding.encodeUtf8 t) bytes' := by
  intro project reference t h
  have husable : project.manifest.isUsable = true := by decide
  have hread : h.disk.read h.here project.manifest = .ok (Encoding.encodeUtf8 t) := by decide +kernel
  have hutf := Encoding.decodeUtf8_encodeUtf8 t
  have hselect : ∀ names, Quiet (project.select names) := Selection.fixed_quiet _
  have hu : Undisturbed project h.machine ["Package.swift".toList] := undisturbed_locking
  have hreturn : 0x0D ∉ Encoding.encodeUtf8 t := by decide +kernel
  have hok : (project.install reference h).1.isOk = true := by decide +kernel
  refine ⟨⟨husable, hread, hutf, hselect, hu⟩, ?_⟩
  obtain ⟨t', hr, hback, ⟨h₁, hw, hsame⟩, hinstall⟩ :=
    @Project.install_keeps project reference h _ t husable hread hutf hselect
  obtain rfl : t' = t := Encoding.encodeUtf8_inj (hback.mpr hreturn)
  refine ⟨⟨h₁, hw, hsame.mpr hreturn⟩, ?_⟩
  rcases hi : project.install reference h with ⟨e | installed, h'⟩
  · rw [hi] at hok
    exact absurd hok Bool.false_ne_true
  · obtain ⟨bytes', hfile, -, -, hs⟩ := hinstall installed h' _ hi hu
    exact ⟨installed, h', bytes', rfl, hfile, hs⟩

/-- A manifest that begins with an empty line, which ends in a carriage return and a line feed. -/
def returnedTarget : Text := '\r' :: '\n' :: oneTarget

/-- A carriage return does not survive. -/
theorem Project.not_install_keeps : ¬∀ (project : Project) (reference : Reference) (h h' : Host)
    (installed : Installed) (place : Place) (bytes : Bytes) (u : Text), project.manifest.isUsable = true →
      h.disk.read h.here project.manifest = .ok bytes → Encoding.decodeUtf8 bytes = .ok u →
        (∀ names, Quiet (project.select names)) → Undisturbed project h.machine place →
          project.install reference h = (.ok installed, h') →
            ∃ bytes', h'.disk.get? place = some (.file bytes') ∧ Survives bytes bytes' := by
  intro hall
  have hno : ((Project.inPlace [['A']] false).install ⟨"https://e.com/n".toList, ['1']⟩
      (Host.ofManifest returnedTarget (Run.locking newLockfile))).1.toOption.map
        (fun installed => decide ('\r' ∈ installed.manifest)) = some false := by
    decide +kernel
  have hu : Undisturbed (.inPlace [['A']] false) (Host.ofManifest returnedTarget (Run.locking newLockfile)).machine
      ["Package.swift".toList] := undisturbed_locking
  rcases hi : (Project.inPlace [['A']] false).install ⟨"https://e.com/n".toList, ['1']⟩
      (Host.ofManifest returnedTarget (Run.locking newLockfile)) with ⟨e | installed, h'⟩
  · rw [hi] at hno
    simp [Except.toOption] at hno
  · rw [hi] at hno
    obtain ⟨bytes', hfile, t, kept, ht, hthin, hsub⟩ := hall _ _ _ _ installed _
      (Encoding.encodeUtf8 returnedTarget) returnedTarget (by decide) (by decide +kernel)
      (Encoding.decodeUtf8_encodeUtf8 _) (Selection.fixed_quiet _) hu hi
    obtain ⟨-, -, -, -, -, -, -, -, -, hleft⟩ := Project.install_eq_ok (Selection.fixed_quiet _) hi
    obtain rfl := Entry.file.inj (Option.some.inj ((hleft _ hu).symm.trans hfile))
    obtain rfl := Encoding.encodeUtf8_inj ht
    have hmanifest : '\r' ∉ installed.manifest := of_decide_eq_false (Option.some.inj hno)
    refine hmanifest (Encoding.return_mem_encodeUtf8.mp (hsub.subset ?_))
    cases hthin with
    | keep => exact Encoding.return_mem_encodeUtf8.mpr List.mem_cons_self

end PackageInstaller
