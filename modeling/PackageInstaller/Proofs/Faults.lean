import PackageInstaller.Proofs.Wiring

/-! What reading and editing a manifest can fail with. A scan fails by a fault of the text, and an edit by
such a fault, for a target that is not declared, or for a package that is. -/

namespace PackageInstaller.Manifest

/-- The reading fails by a fault of the text, if it fails. -/
def Structural {α : Type} (r : Scan α) : Prop := ∀ e, r = .error e → e.isStructural = true

namespace Structural

variable {α β : Type} {r : Scan α}

lemma ok (a : α) : Structural (.ok a : Scan α) := fun e h => by simp at h

lemma error {e : ScanError} (h : e.isStructural = true) : Structural (.error e : Scan α) := by
  intro e' he
  obtain rfl := Except.error.inj he
  exact h

lemma map (h : Structural r) (f : α → β) : Structural (r.map f) := by
  cases r with
  | ok a => exact ok _
  | error e => exact error (h e rfl)

lemma bind (h : Structural r) {f : α → Scan β} (hf : ∀ a, r = .ok a → Structural (f a)) :
    Structural (r >>= f) := by
  cases r with
  | ok a => exact hf a rfl
  | error e => exact error (h e rfl)

end Structural

lemma isStructural_shift (d : Nat) (e : ScanError) : (e.shift d).isStructural = e.isStructural := by
  cases e <;> rfl

lemma Structural.from {α : Type} {r : Scan α} (h : Structural r) (offset : Nat) :
    Structural (Scan.from offset r) := by
  cases r with
  | ok a => exact .ok _
  | error e => exact .error ((isStructural_shift offset e).trans (h e rfl))

lemma Frame.unfinished_structural (frame : Frame) : frame.unfinished.isStructural = true := by
  cases frame <;> rfl

lemma step_structural (pos : Nat) (frame : Frame) (below : List Frame) (c : Char) (t : Text) :
    Structural (step pos frame below c t) := by
  cases frame with
  | string start hashes multiline =>
    rw [step, stringStep]
    split_ifs
    · split <;> exact .ok _
    · exact .ok _
    · exact .error rfl
    · exact .ok _
  | group start opener expected =>
    rw [step, codeStep]
    split
    · exact .ok _
    · split
      · exact .ok _
      · exact .error rfl
    · exact .ok _
    · unfold bracketStep
      split
      · exact .ok _
      · split_ifs
        · split
          · exact .error rfl
          · split_ifs <;> first | exact .ok _ | exact .error rfl
        · exact .ok _

lemma run_structural (extra pos : Nat) (stack : List Frame) (t : Text) :
    Structural (run extra pos stack t) := by
  induction t generalizing extra pos stack with
  | nil =>
    cases stack with
    | nil => cases extra <;> exact .ok _
    | cons frame below => cases extra <;> exact .error frame.unfinished_structural
  | cons c t ih =>
    cases extra with
    | succ extra => exact ih extra (pos + 1) stack
    | zero =>
      cases stack with
      | nil => exact .ok _
      | cons frame below =>
        rw [run]
        have hstep := step_structural pos frame below c t
        cases hs : step pos frame below c t with
        | ok move => exact ih move.extra (pos + 1) move.stack
        | error e => exact .error (hstep e hs)

lemma literalLength?_structural (t : Text) : Structural (literalLength? t) := by
  rw [literalLength?]
  split
  · exact .ok _
  · exact .ok _
  · split
    · exact .ok _
    · exact .error rfl
  · exact (run_structural _ _ _ _).map _

lemma literalSpansFrom_structural (skip pos : Nat) (t : Text) :
    Structural (literalSpansFrom skip pos t) := by
  induction t generalizing skip pos with
  | nil => cases skip <;> exact .ok _
  | cons c t ih =>
    cases skip with
    | succ skip => exact ih skip (pos + 1)
    | zero =>
      rw [literalSpansFrom]
      have hlit := literalLength?_structural (c :: t)
      cases hl : literalLength? (c :: t) with
      | error e => exact .error ((isStructural_shift pos e).trans (hlit e hl))
      | ok n =>
        cases n with
        | none => exact ih 0 (pos + 1)
        | some n => exact (ih (n - 1) (pos + 1)).map _

lemma codeOccurrences_structural (anchor : Anchor) (t : Text) (start stop : Nat) :
    Structural (anchor.codeOccurrences t start stop) :=
  ((literalSpansFrom_structural 0 0 t).map _).bind fun _ _ => .ok _

lemma findClosing_structural {t z : Text} {i : Nat} {o k : Char} (ho : closerOf? o = some k)
    (ht : t.drop i = o :: z) : Structural (findClosing t i) := by
  rw [findClosing, ht, groupLength, ho]
  exact ((run_structural _ _ _ _).map _).from _

variable {ps a b z : List Piece} {w t : Text} {found : List (Text × Call)} {e : EditError}
  {list args : ArgumentList} {reference : Reference} {target identifier : Text}

lemma Told.structural {α : Type} {told : Option α} {r : Scan α} (h : Told told r) : Structural r := by
  cases told with
  | none =>
    obtain ⟨pos, rfl⟩ := h
    exact .error rfl
  | some a =>
    obtain rfl : r = .ok a := h
    exact .ok _

lemma Listed.structural {r : Scan ArgumentList} (h : Listed ps a b r) : Structural r := by
  rcases h with ⟨-, pos, rfl⟩ | ⟨list, cs, -, rfl⟩
  · exact .error rfl
  · exact .ok _

lemma locateFrom_structural (hl : Lexed ps) {sites : List Site} (outer : Nat) (seen : List Text)
    (hs : ∀ s ∈ sites, s ∈ targetSites ps) :
    Structural (locateFrom (textOf ps) outer seen (sites.map (·.occurrence))).outcome := by
  induction sites generalizing outer seen with
  | nil => exact .ok _
  | cons s rest ih =>
    have ih := fun outer seen => ih outer seen fun s hm => hs s (List.mem_cons_of_mem _ hm)
    have hsite := hs s List.mem_cons_self
    obtain ⟨a, hps, hop⟩ := exists_opener_of_site hl hsite
    have hclosing : Structural (callSpan (textOf ps) s.occurrence) := by
      rw [callSpan, hop]
      exact (findClosing_structural (o := '(') rfl (hps ▸ drop_textOf a _)).map _
    rw [List.map_cons, locateFrom, Attempt.bind_outcome, Attempt.ofExcept_outcome]
    refine hclosing.bind fun span hspan => ?_
    obtain ⟨call, hcall⟩ := exists_callOf hl hsite hspan
    obtain ⟨a, w, z, hst⟩ := exists_stands hl hsite hcall
    obtain ⟨b, -, rfl⟩ := Option.map_eq_some_iff.mp hcall
    obtain rfl := Except.ok.inj (hspan.symm.trans (callSpan_stands hl hst))
    split_ifs
    · exact ih _ _
    · rw [Attempt.bind_outcome, Attempt.ofExcept_outcome]
      refine (namingOf_stands hl hst).structural.bind fun nm _ => ?_
      cases nm with
      | nameless => exact ih _ _
      | notLiteral => exact ih _ _
      | named name =>
        simp only
        split_ifs
        · exact ih _ _
        · rw [Attempt.bind_outcome]
          exact (ih _ _).bind fun _ _ => .ok _

theorem locateTargets_structural (t : Text) : Structural (locateTargets t).outcome := by
  rw [locateTargets, Attempt.bind_outcome, Attempt.ofExcept_outcome]
  refine (codeOccurrences_structural _ _ _ _).bind fun os hos => ?_
  obtain ⟨ps, hl, rfl⟩ := exists_pieces hos
  obtain rfl := Except.ok.inj (hos.symm.trans (codeOccurrences_textOf targetDeclaration_calls hl))
  exact locateFrom_structural hl 0 [] fun s hs => hs

/-- Either the text holds no package call, or its first one cannot be found or does not close, or it can
be told. -/
lemma packageArguments?_cases (t : Text) : packageArguments? t = .ok none ∨
    (∃ cause, packageArguments? t = .error cause ∧ cause.isStructural = true) ∨
      ∃ ps a w b z, t = textOf ps ∧ Lexed ps ∧ Holds ps a w b z := by
  cases hos : Anchor.packageCall.codeOccurrences t 0 t.length with
  | error cause =>
    refine .inr (.inl ⟨cause, ?_, codeOccurrences_structural _ _ _ _ cause hos⟩)
    rw [packageArguments?, hos]
    rfl
  | ok os =>
    obtain ⟨ps, hl, rfl⟩ := exists_pieces hos
    cases hs : packageSites ps with
    | nil => exact .inl (packageArguments?_of_nil hl hs)
    | cons s rest =>
      obtain ⟨a, hps, hop⟩ := exists_opener_of_first hl hs
      cases hc : findClosing (textOf ps) s.occurrence.opener with
      | error cause =>
        rw [packageOccurrences hl, hs] at hos
        obtain rfl := Except.ok.inj hos
        refine .inr (.inl ⟨cause, ?_, ?_⟩)
        · rw [packageArguments?, packageOccurrences hl, hs]
          simp only [bind, Except.bind, List.map_cons, splitArguments, hc]
        · rw [hop] at hc
          exact findClosing_structural (o := '(') rfl (hps ▸ drop_textOf a _) cause hc
      | ok n =>
        obtain ⟨a, w, b, z, hh⟩ := holds_of_closing hl hs hc
        exact .inr (.inr ⟨ps, a, w, b, z, rfl, hl, hh⟩)

lemma existingDependencies_lt {n : Nat} (h : n ∈ existingDependencies t list) : n < list.items.length := by
  obtain ⟨x, hx, rfl⟩ := List.mem_map.mp h
  exact List.snd_lt_of_mem_zipIdx (List.mem_filter.mp hx).1

lemma insertAfter_isOk {n : Nat} (h : n < args.items.length) (x : Text) :
    ∃ t', Layout.insertAfter t args n x = .ok t' := by
  rw [Layout.insertAfter, List.getElem?_eq_getElem h]
  exact ⟨_, rfl⟩

lemma addToList_error (h : addToList t list reference = .error e) :
    (∃ cause, declaresUrl t (Repository.canonicalUrl reference.url)
      ((existingDependencies t list).filterMap (list.items[·]?)) = .error cause ∧ e = .scan cause) ∨
      e = .alreadyDeclared reference.url := by
  rw [addToList] at h
  simp only at h
  cases hd : declaresUrl t (Repository.canonicalUrl reference.url)
      ((existingDependencies t list).filterMap (list.items[·]?)) with
  | error cause =>
    rw [hd] at h
    exact .inl ⟨cause, rfl, (Except.error.inj h).symm⟩
  | ok declared =>
    rw [hd] at h
    cases declared with
    | true => exact .inr (Except.error.inj h).symm
    | false =>
      simp only [bind, Except.bind, Except.mapError, Bool.false_eq_true, if_false, pure, Except.pure] at h
      split at h
      · rename_i last hlast
        obtain ⟨t', ht'⟩ := @insertAfter_isOk t _ _ (existingDependencies_lt (List.mem_of_getLast? hlast))
          (renderDeclaration reference)
        simp [ht'] at h
      · split_ifs at h with hi
        obtain ⟨first, rest, hitems⟩ := List.exists_cons_of_ne_nil (by simpa using hi)
        simp [Layout.prepend, hitems] at h

lemma dependencyListAnchor?_lt {n : Nat} (h : dependencyListAnchor? args = some n) : n < args.items.length := by
  obtain ⟨x, hx, rfl⟩ := Option.map_eq_some_iff.mp h
  exact List.snd_lt_of_mem_zipIdx (List.mem_filter.mp (List.mem_of_getLast? hx)).1

lemma addList_error {declaration : Text} (h : addList t args declaration = .error e) :
    e = .dependenciesNotArray ∧ (args.find? dependenciesLabel).isSome ∨ e = .noListAnchor := by
  rw [addList] at h
  split_ifs at h with hsome
  · exact .inl ⟨(Except.error.inj h).symm, hsome⟩
  · split at h
    · exact .inr (Except.error.inj h).symm
    · rename_i index hindex
      have hlt := dependencyListAnchor?_lt hindex
      obtain ⟨t', ht'⟩ := @insertAfter_isOk t _ _ hlt (renderList t args args.items[index] declaration)
      simp [List.getElem?_eq_getElem hlt, ht', Except.mapError] at h

lemma declaresUrl_structural {items : List Argument} {es : List (List Piece)} (hl : Lexed ps)
    (h : List.Forall₂ (Reads ps) items es) (wanted : Text) : Structural (declaresUrl (textOf ps) wanted
      (items.filter fun item => isPackageDeclaration (textOf ps) item.value)) := by
  induction h with
  | nil => exact .ok _
  | cons hr _ ih =>
    rw [List.filter_cons]
    split_ifs
    · refine (declarationUrl?_reads hr hl).structural.bind fun url _ => ?_
      cases url with
      | none => exact ih
      | some url =>
        simp only
        split_ifs
        · exact .ok _
        · exact ih
    · exact ih

/-- A package is not added because of a fault of the manifest, or because it is declared already. -/
theorem addPackage_error (h : (addPackage t reference).outcome = .error e) :
    e.isStructural = true ∨ e.isDuplicate = true := by
  rw [addPackage_outcome] at h
  have h : placePackage t reference = .error e := by
    cases hp : placePackage t reference with
    | ok placed => simp [hp, Except.map] at h
    | error e' =>
      rw [hp] at h
      exact congrArg Except.error (Except.error.inj h)
  rw [placePackage] at h
  rcases packageArguments?_cases t with hp | ⟨cause, hp, hc⟩ | ⟨ps, a, w, b, z, rfl, hl, hh⟩
  · rw [hp] at h
    obtain rfl := Except.error.inj h
    exact .inl rfl
  · rw [hp] at h
    obtain rfl := Except.error.inj h
    exact .inl hc
  · obtain ⟨r, hr, hp⟩ := packageArguments?_holds hl hh
    rw [hp] at h
    rcases hr with ⟨-, pos, rfl⟩ | ⟨args, cs, hargs, rfl⟩
    · obtain rfl := Except.error.inj h
      exact .inl rfl
    · simp only [Except.map, Except.mapError, bind, Except.bind] at h
      rcases dependencyArray?_listed hargs hl rfl hh.balanced hh.pieces with
        ⟨-, hd⟩ | ⟨y, d, rest, -, -, r, hr, hd⟩
      · simp only [hd] at h
        cases hadd : addList (textOf ps) args (renderDeclaration reference) with
        | ok t => simp [hadd, pure, Except.pure] at h
        | error e' =>
          rw [hadd] at h
          obtain rfl := Except.error.inj h
          rcases addList_error hadd with ⟨rfl, -⟩ | rfl <;> exact .inl rfl
      · rcases hr with ⟨-, pos, rfl⟩ | ⟨list, es, hlist, rfl⟩
        · simp only [hd, Except.map] at h
          obtain rfl := Except.error.inj h
          exact .inl rfl
        · simp only [hd, Except.map] at h
          rcases addToList_error h with ⟨cause, hcause, rfl⟩ | rfl
          · rw [existing_items] at hcause
            exact .inl (declaresUrl_structural hl hlist.reads _ cause hcause)
          · exact .inr rfl

/-- A dependency is not added because of a fault of the manifest, or because it declares no such target. -/
theorem addTargetDependency_error (h : (addTargetDependency t target identifier).outcome = .error e) :
    e.isStructural = true ∨ e.isTargetNotFound = true := by
  cases hloc : (locateTargets t).outcome with
  | error cause =>
    rw [addTargetDependency, Attempt.bind_outcome, Attempt.mapError_outcome, hloc] at h
    obtain rfl := Except.error.inj h
    exact .inl (locateTargets_structural t cause hloc)
  | ok ts =>
    obtain ⟨ps, found, rfl, hshown, -⟩ := locateTargets_eq_ok.mp hloc
    exact (not_wirable_of_error hshown h).2.imp_right And.left

theorem selectableTargets_error (h : (selectableTargets t).outcome = .error e) : e.isStructural = true := by
  rw [selectableTargets, Attempt.bind_outcome, Attempt.mapError_outcome] at h
  cases hloc : (locateTargets t).outcome with
  | error cause =>
    rw [hloc] at h
    obtain rfl := Except.error.inj h
    exact locateTargets_structural t cause hloc
  | ok ts =>
    rw [hloc] at h
    simp only [Except.mapError, Except.bind] at h
    split_ifs at h
    obtain rfl := Except.error.inj h
    rfl

theorem declareFor_error {names selected : List Text}
    (h : (declareFor t reference names selected).outcome = .error e) :
    e.isStructural = true ∨ e.isTargetNotFound = true ∨ e.isDuplicate = true := by
  rw [declareFor] at h
  split at h
  · obtain rfl := Except.error.inj h
    exact .inr (.inl rfl)
  · rw [Attempt.bind_outcome, Attempt.tell_outcome] at h
    simp only [Except.bind, Attempt.bind_outcome] at h
    cases hadd : (addPackage t reference).outcome with
    | ok m => simp [hadd] at h
    | error e' =>
      rw [hadd] at h
      obtain rfl := Except.error.inj h
      exact (addPackage_error hadd).imp_right .inr

/-- What stops the wiring is told with the text that it left. -/
theorem wire_error {targets : List Text} {err : WireError}
    (h : (wire t identifier targets).outcome = .error err) :
    ∃ e, err = .wiring e ∧ (wire t identifier e.wired).outcome = .ok e.manifest := by
  obtain ⟨before, target, after, t', cause, rfl, hbefore, hcause, rfl⟩ := wireFrom_error h
  have hkind : (cause.isStructural || cause.isTargetNotFound) = true := by
    rw [Bool.or_eq_true]
    exact addTargetDependency_error hcause
  rw [if_pos hkind]
  exact ⟨_, rfl, hbefore []⟩

end PackageInstaller.Manifest
