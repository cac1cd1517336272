import Mathlib.Data.Finset.Card
import PackageInstaller.Proofs.Leavings
import PackageInstaller.Proofs.Pins
import PackageInstaller.Proofs.ReadBack
import PackageInstaller.Proofs.Utf8

/-! A whole installation, told by the text that it began with and the text that it left. -/

namespace PackageInstaller.Manifest

/-- A declared target encloses the package call. -/
def Enclosed (t : Text) : Prop := ∃ args ∈ (packageArguments? t).toOption.join,
  ∃ target ∈ (locateTargets t).outcome.toOption.getD [],
    target.span.start ≤ args.opener ∧ args.opener < target.span.stop

instance (t : Text) : Decidable (Enclosed t) := by
  delta Enclosed
  infer_instance

/-- What a target of `t` is in `t'`: the `selected` ones have the dependency, and the others are as they were. -/
structure Becomes (t t' : Text) (selected : List Text) (identifier : Text) (target target' : Target) : Prop where
  name : target'.name = target.name
  kind : target'.kind = target.kind
  wired : target.name ∈ selected → ∃ es, elements? t target = some es ∧
    elements? t' target' = some (withElement identifier es)
  others : target.name ∉ selected →
    t'.slice target'.span.start target'.span.stop = t.slice target.span.start target.span.stop

variable {ps ps' ps'' : List Piece} {found found' found'' : List (Text × Call)} {t m identifier : Text}
  {reference : Reference} {names selected : List Text} {prepared : Prepared} {s s' s'' : Text × Call}

lemma not_encloses {a b z : List Piece} {w : Text} (h : Shown ps found) (hh : Holds ps a w b z)
    (hargs : ∃ args, packageArguments? (textOf ps) = .ok (some args)) (hfree : ¬Enclosed (textOf ps))
    (hs : s ∈ found) : ¬Encloses s (textOf (a ++ chars ('P' :: w))).length := by
  rintro ⟨hstart, hstop⟩
  obtain ⟨args, hargs⟩ := hargs
  have hopener : args.opener = (textOf (a ++ chars ('P' :: w))).length := by
    obtain ⟨r, hr, hp⟩ := packageArguments?_holds h.lexed hh
    rw [hargs] at hp
    rcases hr with ⟨-, pos, rfl⟩ | ⟨args', cs, hargs', rfl⟩
    · simp [Except.map] at hp
    · rw [Option.some.inj (Except.ok.inj hp), hargs'.opener]
  have hlocated := locateTargets_eq_ok.mpr ⟨ps, found, rfl, h, rfl⟩
  refine hfree ⟨args, mem_join_toOption hargs, targetOf s, ?_, ?_⟩
  · rw [hlocated]
    exact List.mem_map_of_mem hs
  · rw [hopener]
    exact ⟨hstart, hstop⟩

lemma becomes_of_follows (h : Shown ps found) (hs : s ∈ found) (h'' : Shown ps'' found'') (hs'' : s'' ∈ found'')
    (hid : '\n' ∉ identifier) (halike : Alike s s') (hsame : SameSource (textOf ps) (textOf ps') s s')
    (hfollows : Follows (textOf ps') (textOf ps'') selected identifier s' s'') :
    Becomes (textOf ps) (textOf ps'') selected identifier (targetOf s) (targetOf s'') := by
  refine ⟨hfollows.name.trans halike.name, ?_, fun hsel => ?_, fun hsel => ?_⟩
  · rw [targetOf, targetOf, hfollows.kind, halike.kind]
  · obtain ⟨es, hes, hes'⟩ := hfollows.edited (halike.name.symm ▸ hsel)
    rw [hsame.1] at hes
    refine ⟨es.map shownElement, ?_, ?_⟩
    · rw [h.elements? hs, hes, Option.map_some]
    · rw [h''.elements? hs'', hes', Option.map_some, withName_shown hid]
  · exact (hfollows.same (halike.name.symm ▸ hsel)).2.trans hsame.2

/-- Declaring a package and wiring it adds one URL, and one element to the array of each selected target. -/
theorem declared_and_wired (hnames : (selectableTargets t).outcome = .ok names)
    (hdeclared : (declareFor t reference names selected).outcome = .ok prepared)
    (hwired : (wire prepared.manifest identifier selected).outcome = .ok m) (hone : OneLine reference)
    (hid : '\n' ∉ identifier) (hclear : ClearList t) (hfree : ¬Enclosed t) :
    ∃ urls ts ts', declaredUrls t = .ok urls ∧ declaredUrls m = .ok (urls ++ [reference.url]) ∧
      (locateTargets t).outcome = .ok ts ∧ (locateTargets m).outcome = .ok ts' ∧ names = ts.map (·.name) ∧
        (∀ name ∈ selected, name ∈ ts.map (·.name)) ∧ List.Forall₂ (Becomes t m selected identifier) ts ts' := by
  obtain ⟨hsub, -, hadded⟩ := declareFor_eq_ok hdeclared
  obtain ⟨ts, hts, rfl⟩ := selectableTargets_eq_ok hnames
  obtain ⟨ps, found, rfl, h, rfl⟩ := locateTargets_eq_ok.mp hts
  obtain ⟨a, w, b, z, hh⟩ := holds_of_addPackage h.lexed hadded
  obtain ⟨ps', found', urls, hps', h', hp, hp', -, hf⟩ :=
    addPackage_ok h hh (receptive_of_clearList h.lexed hclear) hone hadded
  rw [hps'] at hwired hf
  obtain ⟨ps'', found'', rfl, h'', hf', -, hkeeps⟩ := wireFrom_ok h' hid hwired
  refine ⟨urls, _, found''.map targetOf, hp.declaredUrls h.lexed, (hkeeps _ hp').1.declaredUrls h''.lexed, hts,
    locateTargets_eq_ok.mpr ⟨ps'', found'', rfl, h'', rfl⟩, rfl, hsub, ?_⟩
  rw [List.forall₂_map_left_iff, List.forall₂_map_right_iff]
  have hargs := arguments_of_addPackage hadded
  -- a target is followed from the first text to the one with the declaration, and from there to the last
  refine forall₂_comp (fun s s' s'' hss' hs's'' => ?_) (forall₂_mem hf) (forall₂_mem hf')
  obtain ⟨hs, -, halike, hsame⟩ := hss'
  obtain ⟨-, hs'', hfollows⟩ := hs's''
  exact becomes_of_follows h hs h'' hs'' hid halike (hsame (not_encloses h hh hargs hfree hs)) hfollows

end PackageInstaller.Manifest

namespace PackageInstaller

open Manifest

lemma Text.return_not_mem_unifyLineEnds (t : Text) : '\r' ∉ unifyLineEnds t := by
  fun_induction unifyLineEnds t with
  | case1 => simp
  | case2 t ih => simpa using ih
  | case3 c t _ ih =>
    rw [List.mem_cons, not_or]
    refine ⟨?_, ih⟩
    split_ifs with hc
    · decide
    · exact Ne.symm hc

lemma Text.unifyLineEnds_eq_self {t : Text} : unifyLineEnds t = t ↔ '\r' ∉ t := by
  refine ⟨fun h => h ▸ return_not_mem_unifyLineEnds t, fun h => ?_⟩
  fun_induction unifyLineEnds t with
  | case1 => rfl
  | case2 t ih => simp at h
  | case3 c t _ ih =>
    rw [List.mem_cons, not_or] at h
    rw [if_neg (Ne.symm h.1), ih h.2]

lemma textOfBytes_eq {bytes : Bytes} {u : Text} (h : Encoding.decodeUtf8 bytes = .ok u) :
    textOfBytes bytes = .ok (Text.unifyLineEnds u) := by
  rw [textOfBytes, h]
  rfl

variable {project : Project} {reference : Reference} {installed : Installed} {h h' : Host} {place : Place} {t : Text}

/-- What an installation that ends well has found, and what it leaves. -/
lemma Project.install_eq_ok (hselect : ∀ names, Quiet (project.select names))
    (hi : project.install reference h = (.ok installed, h')) :
    ∃ before prepared after, project.Declares reference h before prepared ∧
      project.Names h.machine prepared.manifest reference.url installed.identifier ∧
      (wire prepared.manifest installed.identifier prepared.targets).outcome = .ok installed.manifest ∧
      installed.targets = prepared.targets ∧
      (Lockfile.pinsAt h'.disk h'.here project.lockfile false).outcome = .ok after ∧
      installed.count = Lockfile.countNew before after ∧ ∀ place, Undisturbed project h.machine place →
        h'.disk.get? place = some (.file (Encoding.encodeUtf8 installed.manifest)) := by
  rw [Project.install_eq] at hi
  obtain ⟨⟨before, prepared⟩, h₁, hd, hrest⟩ := Action.bind_eq_ok.mp hi
  obtain ⟨⟨identifier, manifest⟩, h₂, hw, hend⟩ := Action.bind_eq_ok.mp hrest
  have hdeclares := Project.declare_eq_ok hd
  have hrw := Runs.of_eq hw
  rw [(Runs.of_eq hd).quiet (.declare hselect)] at hrw
  obtain ⟨hnames, hwired⟩ := hrw.resolveAndWire_wired.1 identifier manifest rfl
  have hfinish := Runs.of_eq hend
  rcases hfinish.finish with ⟨e, -, hno⟩ | ⟨-, ⟨e, -, hno⟩ | ⟨after, hafter, hok⟩⟩
  · simp at hno
  · simp at hno
  obtain rfl := Except.ok.inj hok
  refine ⟨before, prepared, after, hdeclares, hnames, hwired, rfl, hafter, rfl, fun place hu => ?_⟩
  obtain ⟨started, -, hs, -⟩ := hrw.resolveAndWire_started
  have hleft := hrw.resolveAndWire_left hu hdeclares.usable (by simp)
  exact hfinish.finish_keeps (hs.swift ▸ hu.kept .build) hleft

/-- An installation that ends well leaves the manifest that it gives back. It declares one package more than
what was read, the last, has the same targets with the dependency added to those that were selected among
them, under the name that the package was pinned under when it had been resolved, and counts the packages
that are newly pinned. -/
theorem Project.install_edits (hselect : ∀ names, Quiet (project.select names))
    (hi : project.install reference h = (.ok installed, h')) (hu : Undisturbed project h.machine place)
    (ht : ManifestFile.textOf h.disk h.here project.manifest = .ok t) (hone : OneLine reference)
    (hid : '\n' ∉ installed.identifier) (hclear : ClearList t) (hfree : ¬Enclosed t) :
    (∃ bytes, h'.disk.get? place = some (.file bytes) ∧ Encoding.decodeUtf8 bytes = .ok installed.manifest ∧
      ('\r' ∉ installed.manifest → textOfBytes bytes = .ok installed.manifest)) ∧
    (∃ urls ts ts', declaredUrls t = .ok urls ∧
      declaredUrls installed.manifest = .ok (urls ++ [reference.url]) ∧
      (locateTargets t).outcome = .ok ts ∧ (locateTargets installed.manifest).outcome = .ok ts' ∧
      project.Selects h (ts.map (·.name)) installed.targets ∧
      (∀ name ∈ installed.targets, name ∈ ts.map (·.name)) ∧
      List.Forall₂ (Becomes t installed.manifest installed.targets installed.identifier) ts ts') ∧
    (∃ declared, (addPackage t reference).outcome = .ok declared ∧
      project.Names h.machine declared reference.url installed.identifier) ∧
    ∃ before after, (Lockfile.pinsAt h.disk h.here project.lockfile true).outcome = .ok before ∧
      (Lockfile.pinsAt h'.disk h'.here project.lockfile false).outcome = .ok after ∧
      installed.count = ((after.map Lockfile.Pin.key).toFinset \ (before.map Lockfile.Pin.key).toFinset).card := by
  obtain ⟨before, prepared, after, ⟨-, hbefore, t', names, ht', hnames, hselects, hdeclared⟩, hname, hwired,
    htargets, hafter, hcount, hleft⟩ := Project.install_eq_ok hselect hi
  obtain rfl := Except.ok.inj (ht.symm.trans ht')
  rw [← htargets] at hselects hdeclared hwired
  obtain ⟨urls, ts, ts', hurls, hadded, hts, hts', rfl, hsub, hbecomes⟩ :=
    declared_and_wired hnames hdeclared hwired hone hid hclear hfree
  refine ⟨⟨_, hleft place hu, Encoding.decodeUtf8_encodeUtf8 _, fun hreturn => ?_⟩,
    ⟨urls, ts, ts', hurls, hadded, hts, hts', hselects, hsub, hbecomes⟩,
    ⟨prepared.manifest, (declareFor_eq_ok hdeclared).2.2, hname⟩, before, after, hbefore, hafter, ?_⟩
  · rw [textOfBytes_eq (Encoding.decodeUtf8_encodeUtf8 _), Text.unifyLineEnds_eq_self.mpr hreturn]
  · rw [hcount, Lockfile.countNew, Lockfile.length_newKeys]

theorem Project.install_edits_twoTargets :
    let project := Project.inPlace [['A']] false
    let reference : Reference := ⟨"https://e.com/n".toList, ['1']⟩
    let t := "Package(dependencies: [], targets: [.target(name: \"A\", dependencies: []), .target(name: \"B\")])".toList
    let h := Host.ofManifest t (Run.locking newLockfile)
    (∀ names, Quiet (project.select names)) ∧ Undisturbed project h.machine ["Package.swift".toList] ∧
      ManifestFile.textOf h.disk h.here project.manifest = .ok t ∧ OneLine reference ∧ ClearList t ∧ ¬Enclosed t ∧
      ∃ installed h' ts ts', project.install reference h = (.ok installed, h') ∧
        installed.identifier = ['n'] ∧ installed.targets = [['A']] ∧
        declaredUrls installed.manifest = .ok [reference.url] ∧
        (locateTargets t).outcome = .ok ts ∧ (locateTargets installed.manifest).outcome = .ok ts' ∧
        project.Selects h (ts.map (·.name)) [['A']] ∧
        List.Forall₂ (Becomes t installed.manifest [['A']] ['n']) ts ts' ∧
        (∃ declared, (addPackage t reference).outcome = .ok declared ∧
          project.Names h.machine declared reference.url ['n']) ∧
        installed.count = 1 := by
  intro project reference t h
  have hselect : ∀ names, Quiet (project.select names) := Selection.fixed_quiet _
  have hu : Undisturbed project h.machine ["Package.swift".toList] := undisturbed_locking
  have ht : ManifestFile.textOf h.disk h.here project.manifest = .ok t := by decide +kernel
  have hone : OneLine reference := ⟨by decide +kernel, by decide +kernel⟩
  have hclear : ClearList t := by decide +kernel
  have hfree : ¬Enclosed t := by decide +kernel
  have hurls : declaredUrls t = .ok [] := by decide +kernel
  have hend : (project.install reference h).1.toOption.map (fun i => (i.identifier, i.targets, i.count)) =
      some (['n'], [['A']], 1) := by decide +kernel
  obtain ⟨installed, hok, hinstalled⟩ := Option.map_eq_some_iff.mp hend
  obtain ⟨hidentifier, htargets, hcount⟩ : installed.identifier = ['n'] ∧ installed.targets = [['A']] ∧
      installed.count = 1 := by simpa using hinstalled
  have hi : project.install reference h = (.ok installed, (project.install reference h).2) :=
    Prod.ext (toOption_eq_some.mp hok) rfl
  obtain ⟨-, ⟨urls, ts, ts', hurls', hadded, hts, hts', hselects, -, hbecomes⟩, hname, -⟩ :=
    Project.install_edits hselect hi hu ht hone (by rw [hidentifier]; decide) hclear hfree
  obtain rfl : [] = urls := Except.ok.inj (hurls.symm.trans hurls')
  rw [htargets] at hselects hbecomes
  rw [hidentifier] at hname hbecomes
  exact ⟨hselect, hu, ht, hone, hclear, hfree, installed, _, ts, ts', hi, hidentifier, htargets, hadded, hts, hts',
    hselects, hbecomes, hname, hcount⟩

end PackageInstaller
