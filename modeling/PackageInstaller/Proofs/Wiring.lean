import PackageInstaller.Manifest.Edit
import PackageInstaller.Proofs.PackageEdit
import PackageInstaller.Proofs.TargetEdit

/-! Wiring one target after the other. No target gains or loses its array by what is done to the text, so
the first target that cannot be wired is the first one that could not be wired to begin with. -/

namespace PackageInstaller.Manifest

/-- The target is found, and has an array of dependencies that can be read. -/
def wirable (found : List (Text × Call)) (target : Text) : Bool :=
  found.any fun s => s.1 = target && (elementsOf s.2.body).isSome

variable {ps : List Piece} {found found' : List (Text × Call)} {t t' t'' target identifier : Text}
  {targets targets' : List Text} {s s' s'' : Text × Call}

lemma Shown.wirable_eq (h : Shown ps found) {call : Call} (hs : (target, call) ∈ found) :
    wirable found target = (elementsOf call.body).isSome := by
  rw [Bool.eq_iff_iff, wirable, List.any_eq_true]
  constructor
  · rintro ⟨s, hm, hd⟩
    simp only [Bool.and_eq_true, decide_eq_true_eq] at hd
    obtain rfl := h.eq_of_name hs hm hd.1
    exact hd.2
  · intro hd
    exact ⟨_, hs, by simpa using hd⟩

lemma wirable_of_ok (h : Shown ps found)
    (hok : (addTargetDependency (textOf ps) target identifier).outcome = .ok t) :
    wirable found target = true := by
  have hx : Insertable (nameElement []) := insertable_name (by simp)
  have hadds := addTargetDependency_adds h hx target identifier
  rw [hok] at hadds
  cases hadds with
  | listed hm hes => rw [h.wirable_eq hm, hes]; rfl
  | appended hm hes => rw [h.wirable_eq hm, hes]; rfl

lemma not_wirable_of_error (h : Shown ps found) {cause : EditError}
    (he : (addTargetDependency (textOf ps) target identifier).outcome = .error cause) :
    wirable found target = false ∧
      (cause.isStructural = true ∨ cause.isTargetNotFound = true ∧ target ∉ found.map (·.1)) := by
  have hx : Insertable (nameElement []) := insertable_name (by simp)
  have hadds := addTargetDependency_adds h hx target identifier
  rw [he] at hadds
  cases hadds with
  | absent hn =>
    refine ⟨?_, .inr ⟨rfl, ?_⟩⟩
    · rw [wirable, List.any_eq_false]
      intro s hs
      simp [hn s hs]
    · rintro hm
      obtain ⟨s, hs, rfl⟩ := List.mem_map.mp hm
      exact hn s hs rfl
  | broken hm hes hc => exact ⟨by rw [h.wirable_eq hm, hes]; rfl, .inl hc⟩

lemma wirable_alike (h : List.Forall₂ Alike found found') (target : Text) :
    wirable found' target = wirable found target := by
  induction h with
  | nil => rfl
  | cons hs _ ih =>
    rw [wirable, wirable, List.any_cons, List.any_cons, hs.name, hs.array]
    exact congrArg _ ih

lemma names_alike (h : List.Forall₂ Alike found found') : found'.map (·.1) = found.map (·.1) := by
  induction h with
  | nil => rfl
  | cons hs _ ih => rw [List.map_cons, List.map_cons, hs.name, ih]

lemma Follows.alike (h : Follows t t' targets identifier s s') : Alike s s' := by
  refine ⟨h.name, h.kind, ?_⟩
  by_cases hs : s.1 ∈ targets
  · obtain ⟨es, hes, hes'⟩ := h.edited hs
    rw [hes, hes']
    rfl
  · rw [(h.same hs).1]

lemma withName_idem (identifier : Text) (es : List (List Piece)) (hid : '\n' ∉ identifier) :
    withName identifier (withName identifier es) = withName identifier es := by
  by_cases hes : es.any fun c => stringOf (valueOf c) = some identifier
  · simp only [withName, if_pos hes]
  · have hread := stringOf_name hid
    simp only [withName, if_neg hes, List.any_append, List.any_cons, hread]
    simp

lemma Follows.trans (h : Follows t t' targets identifier s s') (hid : '\n' ∉ identifier)
    (h' : Follows t' t'' targets' identifier s' s'') :
    Follows t t'' (targets ++ targets') identifier s s'' := by
  refine ⟨h'.name.trans h.name, h'.kind.trans h.kind, fun hs => ?_, fun hs => ?_⟩
  · by_cases hs₁ : s.1 ∈ targets
    · obtain ⟨es, hes, hes'⟩ := h.edited hs₁
      refine ⟨es, hes, ?_⟩
      by_cases hs₂ : s'.1 ∈ targets'
      · obtain ⟨es', hes₁, hes₂⟩ := h'.edited hs₂
        obtain rfl := Option.some.inj (hes'.symm.trans hes₁)
        rw [hes₂, withName_idem _ _ hid]
      · rw [(h'.same hs₂).1, hes']
    · have hs₂ : s'.1 ∈ targets' := h.name ▸ (List.mem_append.mp hs).resolve_left hs₁
      obtain ⟨es, hes, hes'⟩ := h'.edited hs₂
      rw [(h.same hs₁).1] at hes
      exact ⟨es, hes, hes'⟩
  · simp only [List.mem_append, not_or] at hs
    have h₁ := h.same hs.1
    have h₂ := h'.same (h.name ▸ hs.2)
    exact ⟨h₂.1.trans h₁.1, h₂.2.trans h₁.2⟩

lemma wireFrom_cons (identifier : Text) (wired : List Text) (t target : Text) (rest : List Text) :
    (wireFrom identifier wired t (target :: rest)).outcome =
      match (addTargetDependency t target identifier).outcome with
      | .ok edited => (wireFrom identifier (wired ++ [target]) edited rest).outcome
      | .error e => .error (if e.isStructural || e.isTargetNotFound then .wiring ⟨target, wired, t, e⟩
        else .edit e) := by
  rw [wireFrom]
  simp only
  cases (addTargetDependency t target identifier).outcome with
  | ok => rfl
  | error e =>
    simp only
    split_ifs <;> rfl

/-- Where the wiring fails, the targets before are wired, and in their text the next cannot be. -/
lemma wireFrom_error {wired : List Text} {err : WireError}
    (h : (wireFrom identifier wired t targets).outcome = .error err) :
    ∃ before target after t' cause, targets = before ++ target :: after ∧
      (∀ wired', (wireFrom identifier wired' t before).outcome = .ok t') ∧
      (addTargetDependency t' target identifier).outcome = .error cause ∧
      err = if cause.isStructural || cause.isTargetNotFound then
        .wiring ⟨target, wired ++ before, t', cause⟩ else .edit cause := by
  induction targets generalizing wired t with
  | nil => simp [wireFrom] at h
  | cons target rest ih =>
    rw [wireFrom_cons] at h
    cases hadd : (addTargetDependency t target identifier).outcome with
    | error cause =>
      rw [hadd] at h
      refine ⟨[], target, rest, t, cause, rfl, fun _ => rfl, hadd, ?_⟩
      rw [List.append_nil]
      exact (Except.error.inj h).symm
    | ok edited =>
      rw [hadd] at h
      obtain ⟨before, next, after, t', cause, rfl, hbefore, hcause, rfl⟩ := ih h
      refine ⟨target :: before, next, after, t', cause, rfl, fun wired' => ?_, hcause, ?_⟩
      · rw [wireFrom_cons, hadd]
        exact hbefore _
      · rw [List.append_assoc, List.singleton_append]

/-- All targets are wired, each of them could be, and the others are left alone. -/
theorem wireFrom_ok {wired : List Text} (h : Shown ps found) (hid : '\n' ∉ identifier)
    (hok : (wireFrom identifier wired (textOf ps) targets).outcome = .ok t) :
    ∃ ps' found', t = textOf ps' ∧ Shown ps' found' ∧
      List.Forall₂ (Follows (textOf ps) t targets identifier) found found' ∧
        (∀ target ∈ targets, wirable found target = true) ∧ Keeps ps ps' := by
  induction targets generalizing ps found wired with
  | nil =>
    obtain rfl := Except.ok.inj hok
    refine ⟨ps, found, rfl, h, List.forall₂_same.mpr fun s _ => ?_, by simp, .refl ps⟩
    exact ⟨rfl, rfl, by simp, fun _ => ⟨rfl, rfl⟩⟩
  | cons target rest ih =>
    rw [wireFrom_cons] at hok
    cases hadd : (addTargetDependency (textOf ps) target identifier).outcome with
    | error cause =>
      rw [hadd] at hok
      simp at hok
    | ok edited =>
      rw [hadd] at hok
      obtain ⟨ps₁, found₁, rfl, h₁, hf₁, hp₁⟩ := addTargetDependency_ok h hid hadd
      obtain ⟨ps₂, found₂, rfl, h₂, hf₂, hw, hp₂⟩ := ih h₁ hok
      have halike := hf₁.imp fun s s' h => h.alike
      refine ⟨ps₂, found₂, rfl, h₂, ?_, ?_, hp₁.trans hp₂⟩
      · exact forall₂_comp (fun _ _ _ h h' => h.trans hid h') hf₁ hf₂
      · intro target' ht
        rcases List.mem_cons.mp ht with rfl | ht
        · exact wirable_of_ok h hadd
        · rw [← wirable_alike halike]
          exact hw target' ht

/-- The targets are wired up to the first that could not be wired to begin with. -/
theorem wireFrom_find (h : Shown ps found) (hid : '\n' ∉ identifier)
    (hnames : ∀ target ∈ targets, target ∈ found.map (·.1)) :
    match targets.find? fun target => !wirable found target with
    | none => ∃ t, (wire (textOf ps) identifier targets).outcome = .ok t
    | some target => ∃ e, (wire (textOf ps) identifier targets).outcome = .error (.wiring e) ∧
      e.target = target ∧ e.cause.isStructural = true ∧
        e.wired = targets.takeWhile (wirable found) ∧
          (wire (textOf ps) identifier e.wired).outcome = .ok e.manifest := by
  simp only [wire]
  cases hout : (wireFrom identifier [] (textOf ps) targets).outcome with
  | ok t =>
    obtain ⟨-, -, -, -, -, hw, -⟩ := wireFrom_ok h hid hout
    rw [List.find?_eq_none.mpr fun target ht => by simp [hw target ht]]
    exact ⟨t, rfl⟩
  | error err =>
    obtain ⟨before, target, after, t, cause, rfl, hbefore, hcause, rfl⟩ := wireFrom_error hout
    obtain ⟨ps', found', rfl, h', hf, hw, -⟩ := wireFrom_ok h hid (hbefore [])
    have halike := hf.imp fun s s' h => h.alike
    obtain ⟨hnot, hkind⟩ := not_wirable_of_error h' hcause
    have hname := hnames target (by simp)
    rw [← names_alike halike] at hname
    have hstruct := hkind.resolve_right fun hn => hn.2 hname
    rw [wirable_alike halike] at hnot
    have hfind : (before ++ target :: after).find? (fun target => !wirable found target) = some target := by
      rw [List.find?_append, List.find?_eq_none.mpr fun target ht => by simp [hw target ht], Option.none_or,
        List.find?_cons_of_pos (by simp [hnot])]
    have htake : (before ++ target :: after).takeWhile (wirable found) = before := by
      rw [List.takeWhile_append_of_pos hw, List.takeWhile_cons_of_neg (by simp [hnot]), List.append_nil]
    rw [hfind, htake, hstruct]
    exact ⟨_, rfl, rfl, hstruct, rfl, hbefore []⟩

variable {m : Text} {reference : Reference} {names selected : List Text}

lemma selectableTargets_eq_ok (h : (selectableTargets t).outcome = .ok names) :
    ∃ ts, (locateTargets t).outcome = .ok ts ∧ names = ts.map (·.name) := by
  rw [selectableTargets, Attempt.bind_eq_ok] at h
  obtain ⟨ts, hts, h⟩ := h
  rw [Attempt.mapError_outcome] at hts
  refine ⟨ts, ?_, ?_⟩
  · cases hl : (locateTargets t).outcome with
    | error e =>
      rw [hl] at hts
      simp [Except.mapError] at hts
    | ok ts' =>
      rw [hl] at hts
      exact congrArg Except.ok (Except.ok.inj hts)
  · split_ifs at h
    · simp at h
    · exact (Except.ok.inj h).symm

lemma declareFor_eq_ok {prepared : Prepared}
    (h : (declareFor t reference names selected).outcome = .ok prepared) :
    (∀ name ∈ selected, name ∈ names) ∧ prepared.targets = selected ∧
      (addPackage t reference).outcome = .ok prepared.manifest := by
  rw [declareFor] at h
  split at h
  · simp at h
  · rename_i hn
    simp only [Attempt.bind_eq_ok] at h
    obtain ⟨-, -, m, hm, h⟩ := h
    obtain rfl := Except.ok.inj h
    refine ⟨fun name hname => ?_, rfl, hm⟩
    simpa using List.find?_eq_none.mp hn name hname

/-- The targets chosen for a package can be wired exactly as they could be before it was declared. -/
theorem wire_prepared {select : List Text → List Text} (hclear : ClearList t) (hone : OneLine reference)
    (hid : '\n' ∉ identifier) (hp : (prepare t reference select).outcome = .ok ⟨m, targets⟩) :
    match targets.find? fun target => !(addTargetDependency t target identifier).outcome.isOk with
    | none => ∃ t', (wire m identifier targets).outcome = .ok t'
    | some target => ∃ e, (wire m identifier targets).outcome = .error (.wiring e) ∧ e.target = target ∧
      e.cause.isTargetNotFound = false ∧ e.cause.isStructural = true ∧
        e.wired = targets.takeWhile (fun target => (addTargetDependency t target identifier).outcome.isOk) ∧
          (wire m identifier e.wired).outcome = .ok e.manifest := by
  rw [prepare, Attempt.bind_eq_ok] at hp
  obtain ⟨names, hnames, hp⟩ := hp
  obtain ⟨hsub, htargets, hadd⟩ := declareFor_eq_ok hp
  obtain ⟨ts, hloc, rfl⟩ := selectableTargets_eq_ok hnames
  obtain ⟨ps, found, rfl, h, rfl⟩ := locateTargets_eq_ok.mp hloc
  obtain ⟨a, w, b, z, hh⟩ := holds_of_addPackage h.lexed hadd
  obtain ⟨ps', found', -, hm, h', -, -, -, hf⟩ :=
    addPackage_ok h hh (receptive_of_clearList h.lexed hclear) hone hadd
  have halike := hf.imp fun s s' h => h.1
  simp only at htargets hm
  subst htargets hm
  have hok : ∀ target, (addTargetDependency (textOf ps) target identifier).outcome.isOk =
      wirable found' target := by
    intro target
    rw [wirable_alike halike]
    cases hadd : (addTargetDependency (textOf ps) target identifier).outcome with
    | ok t => exact (wirable_of_ok h hadd).symm
    | error cause => exact (not_wirable_of_error h hadd).1.symm
  have hmem : ∀ target ∈ select ((found.map targetOf).map (·.name)), target ∈ found'.map (·.1) := by
    intro target ht
    have := hsub target ht
    rw [names_alike halike]
    simpa [targetOf] using this
  have key := wireFrom_find h' hid hmem
  simp only [hok]
  cases hfind : (select ((found.map targetOf).map (·.name))).find? (fun target => !wirable found' target) with
  | none =>
    rw [hfind] at key
    exact key
  | some target =>
    rw [hfind] at key
    obtain ⟨e, he, htarget, hstruct, hwired, hman⟩ := key
    refine ⟨e, he, htarget, ?_, hstruct, hwired, hman⟩
    cases hcause : e.cause <;> rw [hcause] at hstruct <;> first | rfl | simp [EditError.isStructural] at hstruct

def twoTargets : Text :=
  "let package = Package(name: \"P\", targets: [.target(name: \"A\", dependencies: []), .target(name: \"B\")])".toList

def newPackage : Reference := ⟨"https://example.com/new".toList, "1.2.0".toList⟩

theorem wire_prepared_twoTargets : ∃ m e,
    (prepare twoTargets newPackage id).outcome = .ok ⟨m, [['A'], ['B']]⟩ ∧
      (wire m ['N'] [['A'], ['B']]).outcome = .error (.wiring e) ∧ e.target = ['B'] ∧ e.wired = [['A']] := by
  have hclear : ClearList twoTargets := by decide +kernel
  have hone : OneLine newPackage := ⟨by decide +kernel, by decide +kernel⟩
  have hid : '\n' ∉ ['N'] := by decide
  have hA : (addTargetDependency twoTargets ['A'] ['N']).outcome.isOk = true := by decide +kernel
  have hB : (addTargetDependency twoTargets ['B'] ['N']).outcome.isOk = false := by decide +kernel
  have hts : (prepare twoTargets newPackage id).outcome.toOption.map (·.targets) = some [['A'], ['B']] := by
    decide +kernel
  cases hp : (prepare twoTargets newPackage id).outcome with
  | error e => simp [hp, Except.toOption] at hts
  | ok prepared =>
    obtain ⟨m, targets⟩ := prepared
    rw [hp] at hts
    obtain rfl : targets = [['A'], ['B']] := Option.some.inj hts
    have h := wire_prepared hclear hone hid hp
    simp only [List.find?_cons, hA, hB, Bool.not_true, Bool.not_false, List.takeWhile_cons, if_true] at h
    obtain ⟨e, he, htarget, -, -, hwired, -⟩ := h
    exact ⟨m, e, rfl, he, htarget, hwired⟩

end PackageInstaller.Manifest
