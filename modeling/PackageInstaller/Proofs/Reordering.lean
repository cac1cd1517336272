import PackageInstaller.Proofs.ReadBack

/-! Wiring a set of targets. It is done exactly if each of them could be wired alone, and what comes of it
shows neither the order in which they were named nor how often. -/

namespace PackageInstaller.Manifest

/-- Every target of a text by its name, its kind, and the elements of its dependencies. -/
def wirings (t : Text) : Except ScanError (List (Text × Text × Option (List (Text × Option Text)))) :=
  (locateTargets t).outcome.map (List.map fun target => (target.name, target.kind, elements? t target))

def wiringOf (s : Text × Call) : Text × Text × Option (List (Text × Option Text)) :=
  (s.1, s.2.occurrence.capture.getD [], (elementsOf s.2.body).map (List.map shownElement))

variable {ps : List Piece} {found found' : List (Text × Call)} {s s₁ s₂ : Text × Call}
  {t t₁ t₂ identifier : Text} {targets targets' : List Text}

lemma Shown.wirings (h : Shown ps found) : wirings (textOf ps) = .ok (found.map wiringOf) := by
  rw [Manifest.wirings, locateTargets_eq_ok.mpr ⟨ps, found, rfl, h, rfl⟩]
  apply congrArg Except.ok
  rw [List.map_map]
  apply List.map_congr_left
  intro s hs
  exact congrArg (fun es => (s.1, s.2.occurrence.capture.getD [], es)) (h.elements? hs)

lemma addTargetDependency_isOk (h : Shown ps found) (target identifier : Text) :
    (addTargetDependency (textOf ps) target identifier).outcome.isOk = wirable found target := by
  cases hadd : (addTargetDependency (textOf ps) target identifier).outcome with
  | ok t => exact (wirable_of_ok h hadd).symm
  | error cause => exact (not_wirable_of_error h hadd).1.symm

lemma locates_of_isOk {target : Text} (h : (addTargetDependency t target identifier).outcome.isOk = true) :
    ∃ ps found, t = textOf ps ∧ Shown ps found := by
  cases hloc : (locateTargets t).outcome with
  | error cause =>
    rw [addTargetDependency, Attempt.bind_outcome, Attempt.mapError_outcome, hloc] at h
    exact absurd h Bool.false_ne_true
  | ok ts =>
    obtain ⟨ps, found, hps, hshown, -⟩ := locateTargets_eq_ok.mp hloc
    exact ⟨ps, found, hps, hshown⟩

lemma Shown.wire_isOk (h : Shown ps found) (hid : '\n' ∉ identifier) :
    (wire (textOf ps) identifier targets).outcome.isOk = true ↔
      ∀ target ∈ targets, wirable found target = true := by
  constructor
  · intro hok
    obtain ⟨t, hw⟩ := isOk_iff.mp hok
    obtain ⟨-, -, -, -, -, hwirable, -⟩ := wireFrom_ok h hid hw
    exact hwirable
  · intro hwirable
    have hnames : ∀ target ∈ targets, target ∈ found.map (·.1) := by
      intro target ht
      obtain ⟨s, hs, rfl⟩ := exists_of_wirable (hwirable target ht)
      exact List.mem_map_of_mem hs
    have hfind := wireFrom_find h hid hnames
    rw [List.find?_eq_none.mpr fun target ht => by simp [hwirable target ht]] at hfind
    exact isOk_iff.mpr hfind

/-- Targets are wired together exactly if each of them could be wired alone. -/
theorem wire_isOk (hid : '\n' ∉ identifier) : (wire t identifier targets).outcome.isOk = true ↔
    ∀ target ∈ targets, (addTargetDependency t target identifier).outcome.isOk = true := by
  by_cases hloc : ∃ ps found, t = textOf ps ∧ Shown ps found
  · obtain ⟨ps, found, rfl, h⟩ := hloc
    rw [h.wire_isOk hid]
    apply forall₂_congr
    intro target _
    rw [addTargetDependency_isOk h]
  · -- no target is found at all, so the wiring ends at the first one that is named
    cases targets with
    | nil => exact iff_of_true rfl (by simp)
    | cons target rest =>
      apply iff_of_false
      · rw [wire, wireFrom_cons]
        cases hadd : (addTargetDependency t target identifier).outcome with
        | ok edited => exact absurd (locates_of_isOk (isOk_iff.mpr ⟨edited, hadd⟩)) hloc
        | error cause => exact Bool.false_ne_true
      · intro hall
        exact hloc (locates_of_isOk (hall target List.mem_cons_self))

lemma Follows.wiringOf_eq (hsame : ∀ name, name ∈ targets ↔ name ∈ targets')
    (h : Follows t t₁ targets identifier s s₁) (h' : Follows t t₂ targets' identifier s s₂) :
    wiringOf s₁ = wiringOf s₂ := by
  have helements : elementsOf s₁.2.body = elementsOf s₂.2.body := by
    by_cases hs : s.1 ∈ targets
    · obtain ⟨es, hes, hes₁⟩ := h.edited hs
      obtain ⟨es', hes', hes₂⟩ := h'.edited ((hsame s.1).mp hs)
      obtain rfl := Option.some.inj (hes.symm.trans hes')
      rw [hes₁, hes₂]
    · rw [(h.same hs).1, (h'.same (mt (hsame s.1).mpr hs)).1]
  rw [wiringOf, wiringOf, h.name, h.kind, h'.name, h'.kind, helements]

/-- Two lists that name the same targets are both wired or neither is, and leave every target with the same
elements. -/
theorem wire_same_members (hid : '\n' ∉ identifier) (hsame : ∀ name, name ∈ targets ↔ name ∈ targets') :
    ((wire t identifier targets).outcome.isOk = true ↔ (wire t identifier targets').outcome.isOk = true) ∧
    ∀ r r', (wire t identifier targets).outcome = .ok r → (wire t identifier targets').outcome = .ok r' →
      wirings r = wirings r' := by
  constructor
  · rw [wire_isOk hid, wire_isOk hid]
    apply forall_congr'
    intro target
    rw [hsame]
  · intro r r' hr hr'
    cases targets with
    | nil =>
      obtain rfl : targets' = [] := List.eq_nil_iff_forall_not_mem.mpr fun name => by simp [← hsame]
      obtain rfl := Except.ok.inj hr
      obtain rfl := Except.ok.inj hr'
      rfl
    | cons target rest =>
      have hfirst := (wire_isOk hid).mp (isOk_iff.mpr ⟨r, hr⟩) target List.mem_cons_self
      obtain ⟨ps, found, rfl, h⟩ := locates_of_isOk hfirst
      obtain ⟨ps₁, found₁, rfl, h₁, hf₁, -, -⟩ := wireFrom_ok h hid hr
      obtain ⟨ps₂, found₂, rfl, h₂, hf₂, -, -⟩ := wireFrom_ok h hid hr'
      rw [h₁.wirings, h₂.wirings]
      exact congrArg Except.ok
        (map_eq_of_forall₂ (fun _ _ _ hs hs' => hs.wiringOf_eq hsame hs') hf₁ hf₂)

def neighbours : Text :=
  "Package(targets: [.target(name: \"A\", dependencies: []), .target(name: \"B\", dependencies: [\"X\", ])])".toList

theorem wire_same_members_neighbours : ∃ r r',
    (wire neighbours ['N'] [['A'], ['B']]).outcome = .ok r ∧
      (wire neighbours ['N'] [['B'], ['A'], ['B']]).outcome = .ok r' ∧ wirings r = wirings r' := by
  have hid : '\n' ∉ ['N'] := by decide
  have hsame : ∀ name, name ∈ [['A'], ['B']] ↔ name ∈ [['B'], ['A'], ['B']] := by
    intro name
    simp only [List.mem_cons, List.not_mem_nil, or_false]
    tauto
  have hwired : (wire neighbours ['N'] [['A'], ['B']]).outcome.isOk = true := by decide +kernel
  have h := @wire_same_members neighbours ['N'] [['A'], ['B']] [['B'], ['A'], ['B']] hid hsame
  obtain ⟨r, hr⟩ := isOk_iff.mp hwired
  obtain ⟨r', hr'⟩ := isOk_iff.mp (h.1.mp hwired)
  exact ⟨r, r', hr, hr', h.2 r r' hr hr'⟩

end PackageInstaller.Manifest
