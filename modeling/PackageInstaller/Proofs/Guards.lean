import PackageInstaller.Proofs.Faults

/-! The guards that the scanner and the editors do without: every place that they look at is there, however
broken the text. What is left to fail with is a fault of the text or of what was asked. -/

namespace PackageInstaller.Manifest

/-- A group that is open waits for a bracket. -/
def Frame.awaits : Frame → Bool
  | .string _ _ _ => true
  | .group _ _ expected => !expected.isEmpty

/-- The run that asks, before every step, whether there is something to wait for. -/
def guardedRun : Nat → Nat → List Frame → Text → Scan Nat
  | extra + 1, pos, stack, _ :: t => guardedRun extra (pos + 1) stack t
  | _, pos, [], _ => .ok pos
  | _, _, frame :: _, [] => .error frame.unfinished
  | 0, pos, frame :: below, c :: t =>
    if frame.awaits then
      match step pos frame below c t with
      | .ok move => guardedRun move.extra (pos + 1) move.stack t
      | .error e => .error e
    else .error .noItem

def Awaiting (stack : List Frame) : Prop := ∀ frame ∈ stack, frame.awaits = true

variable {pos start hashes : Nat} {multiline : Bool} {opener c : Char} {expected : List Char}
  {frame : Frame} {below stack : List Frame} {t : Text} {move : Move}

lemma Awaiting.cons (hf : frame.awaits = true) (h : Awaiting below) : Awaiting (frame :: below) :=
  List.forall_mem_cons.mpr ⟨hf, h⟩

lemma stringStep_awaiting (h : Awaiting below)
    (hs : stringStep pos start hashes multiline below t = .ok move) : Awaiting move.stack := by
  have hsame : Awaiting (.string start hashes multiline :: below) := .cons rfl h
  rw [stringStep] at hs
  split_ifs at hs
  · split at hs
    · obtain rfl := Except.ok.inj hs
      exact .cons rfl hsame
    · obtain rfl := Except.ok.inj hs
      exact hsame
  · obtain rfl := Except.ok.inj hs
    exact h
  · obtain rfl := Except.ok.inj hs
    exact hsame

lemma bracketStep_awaiting (h : Awaiting (.group start opener expected :: below))
    (hs : bracketStep pos start opener expected below c = .ok move) : Awaiting move.stack := by
  have hbelow : Awaiting below := (List.forall_mem_cons.mp h).2
  unfold bracketStep at hs
  split at hs
  · obtain rfl := Except.ok.inj hs
    exact .cons rfl hbelow
  · split_ifs at hs
    · split at hs
      · simp at hs
      · split_ifs at hs with hclose hlast
        · obtain rfl := Except.ok.inj hs
          exact hbelow
        · -- the closer that was waited for is not the last one
          obtain rfl := Except.ok.inj hs
          exact .cons (by simpa [Frame.awaits] using hlast) hbelow
    · obtain rfl := Except.ok.inj hs
      exact h

lemma codeStep_awaiting (h : Awaiting (.group start opener expected :: below))
    (hs : codeStep pos start opener expected below c t = .ok move) : Awaiting move.stack := by
  rw [codeStep] at hs
  split at hs
  · obtain rfl := Except.ok.inj hs
    exact h
  · split at hs
    · obtain rfl := Except.ok.inj hs
      exact h
    · simp at hs
  · obtain rfl := Except.ok.inj hs
    exact .cons rfl h
  · exact bracketStep_awaiting h hs

lemma step_awaiting (h : Awaiting (frame :: below)) (hs : step pos frame below c t = .ok move) :
    Awaiting move.stack := by
  cases frame with
  | string start hashes multiline => exact stringStep_awaiting (List.forall_mem_cons.mp h).2 hs
  | group start opener expected => exact codeStep_awaiting h hs

theorem guardedRun_eq (extra pos : Nat) (t : Text) (h : Awaiting stack) :
    guardedRun extra pos stack t = run extra pos stack t := by
  induction t generalizing extra pos stack with
  | nil => cases stack <;> cases extra <;> rfl
  | cons c t ih =>
    cases extra with
    | succ extra => exact ih extra (pos + 1) h
    | zero =>
      cases stack with
      | nil => rfl
      | cons frame below =>
        rw [guardedRun, run, if_pos (h frame List.mem_cons_self)]
        cases hs : step pos frame below c t with
        | error e => rfl
        | ok move => exact ih move.extra (pos + 1) (step_awaiting h hs)

lemma groupLength_bounds {n : Nat} (h : groupLength t = .ok n) : 2 ≤ n ∧ n ≤ t.length := by
  cases t with
  | nil => simp [groupLength] at h
  | cons c t =>
    rw [groupLength] at h
    split at h
    · simp at h
    · obtain ⟨hlow, hhigh⟩ := run_bounds h (.inl (Nat.zero_le _))
      simp only [leastRest, Frame.least, List.length_cons] at hlow ⊢
      omega

lemma findClosing_bounds {i n : Nat} (h : findClosing t i = .ok n) : i < n ∧ n < t.length := by
  rw [findClosing, Scan.from] at h
  cases hg : groupLength (t.drop i) with
  | error e => simp [hg, Except.map, Except.mapError] at h
  | ok m =>
    rw [hg] at h
    obtain rfl : i + m - 1 = n := Except.ok.inj h
    obtain ⟨hlow, hhigh⟩ := groupLength_bounds hg
    rw [List.length_drop] at hhigh
    omega

lemma stringOpening?_quote {k : Nat} {u : Text} (h : stringOpening? k u = some (.string hashes multiline)) :
    hashes = k ∧ u[0]? = some '"' := by
  rw [stringOpening?_eq] at h
  split_ifs at h with hq
  obtain ⟨rfl, -⟩ := Opening.string.inj (Option.some.inj h)
  exact ⟨rfl, List.head?_eq_getElem?.symm.trans hq⟩

lemma opening?_quote (h : opening? t = some (.string hashes multiline)) : t[hashes]? = some '"' := by
  unfold opening? at h
  split at h
  · simp at h
  · simp at h
  · obtain ⟨rfl, hq⟩ := stringOpening?_quote h
    rw [List.getElem?_drop] at hq
    exact hq

theorem packageArguments?_structural (t : Text) : Structural (packageArguments? t) := by
  rcases packageArguments?_cases t with hp | ⟨cause, hp, hc⟩ | ⟨ps, a, w, b, z, rfl, hl, hh⟩
  · rw [hp]
    exact .ok _
  · rw [hp]
    exact .error hc
  · obtain ⟨r, hr, hp⟩ := packageArguments?_holds hl hh
    rw [hp]
    exact hr.structural.map _

theorem declaredUrls_structural (t : Text) : Structural (declaredUrls t) := by
  rcases packageArguments?_cases t with hp | ⟨cause, hp, hc⟩ | ⟨ps, a, w, b, z, rfl, hl, hh⟩
  · rw [declaredUrls, hp]
    exact .ok _
  · rw [declaredUrls, hp]
    exact .error hc
  · exact (declaredUrls_holds hl hh).structural

theorem prepare_error {reference : Reference} {select : List Text → List Text} {e : EditError}
    (h : (prepare t reference select).outcome = .error e) :
    e.isStructural = true ∨ e.isTargetNotFound = true ∨ e.isDuplicate = true := by
  rw [prepare, Attempt.bind_outcome] at h
  cases hnames : (selectableTargets t).outcome with
  | error e' =>
    rw [hnames] at h
    obtain rfl := Except.error.inj h
    exact .inl (selectableTargets_error hnames)
  | ok names =>
    rw [hnames] at h
    exact declareFor_error h

theorem wire_error_cause {identifier : Text} {names : List Text} {err : WireError}
    (h : (wire t identifier names).outcome = .error err) :
    ∃ e, err = .wiring e ∧ (e.cause.isStructural = true ∨ e.cause.isTargetNotFound = true) := by
  obtain ⟨before, target, after, t', cause, -, -, hcause, rfl⟩ := wireFrom_error h
  have hkind := addTargetDependency_error hcause
  rw [if_pos (by rwa [Bool.or_eq_true])]
  exact ⟨_, rfl, hkind⟩

/-- Reading and editing fail only with what is told to the user, and no place that is looked at without a
guard is missing. -/
theorem edits_report_failures (t : Text) (reference : Reference) (target identifier : Text) (names : List Text)
    (select : List Text → List Text) :
    (Structural (packageArguments? t) ∧ Structural (declaredUrls t) ∧ Structural (locateTargets t).outcome) ∧
    (∀ e, (addPackage t reference).outcome = .error e → e.isStructural = true ∨ e.isDuplicate = true) ∧
    (∀ e, (addTargetDependency t target identifier).outcome = .error e →
      e.isStructural = true ∨ e.isTargetNotFound = true) ∧
    (∀ e, (prepare t reference select).outcome = .error e →
      e.isStructural = true ∨ e.isTargetNotFound = true ∨ e.isDuplicate = true) ∧
    (∀ err, (wire t identifier names).outcome = .error err →
      ∃ e, err = .wiring e ∧ (e.cause.isStructural = true ∨ e.cause.isTargetNotFound = true)) ∧
    (∀ extra pos stack, Awaiting stack → guardedRun extra pos stack t = run extra pos stack t) ∧
    (∀ i n, findClosing t i = .ok n → i < n ∧ n < t.length) ∧
    (∀ i hashes multiline, opening? (t.drop i) = some (.string hashes multiline) → t[i + hashes]? = some '"') ∧
    (∀ list, ∀ n ∈ existingDependencies t list, n < list.items.length) ∧
    ∀ args n, dependencyListAnchor? args = some n → n < args.items.length := by
  refine ⟨⟨packageArguments?_structural t, declaredUrls_structural t, locateTargets_structural t⟩,
    fun e => addPackage_error, fun e => addTargetDependency_error, fun e => prepare_error,
    fun err => wire_error_cause, fun extra pos stack h => guardedRun_eq extra pos t h,
    fun i n => findClosing_bounds, fun i hashes multiline h => ?_, fun list n => existingDependencies_lt,
    fun args n => dependencyListAnchor?_lt⟩
  rw [← List.getElem?_drop]
  exact opening?_quote h

end PackageInstaller.Manifest
