import PackageInstaller.Proofs.Faults

/-! Which values an addition is refused for. Both editors look at the first character of the value that is
labelled as the dependencies, and at no more of it than the bracket group that begins there. -/

namespace PackageInstaller.Manifest

/-- The first value that is labelled as the dependencies begins with a bracket. -/
def Bracketed (t : Text) (args : ArgumentList) : Prop :=
  ∃ item, args.find? dependenciesLabel = some item ∧ t[item.value.start]? = some '['

/-- The value is one bracket group, which nothing follows. -/
def SpansValue (t : Text) (value : Span) : Prop :=
  ∃ list, arrayAt? t value = .ok (some list) ∧ list.closer + 1 = value.stop

variable {ps a b z : List Piece} {t : Text} {args : ArgumentList} {reference : Reference}

lemma not_bracketed_of_none (h : dependencyArray? t args = .ok none) : ¬Bracketed t args := by
  rintro ⟨item, hi, hc⟩
  rw [dependencyArray?, hi] at h
  simp only [arrayAt?, hc] at h
  cases hs : splitArguments t item.value.start <;> rw [hs] at h <;> simp [Except.map] at h

lemma dependencyArray?_eq_none {o k : Char} {cs : List (List Piece)} (h : Lists ps a b args cs)
    (hl : Lexed ps) (hk : isCloser k = true) (hb : Balanced b)
    (hps : ps = a ++ .char o :: (b ++ .char k :: z)) (hn : ¬Bracketed (textOf ps) args) :
    dependencyArray? (textOf ps) args = .ok none := by
  rcases dependencyArray?_listed h hl hk hb hps with
    ⟨-, hd⟩ | ⟨y, d, rest, -, -, r, hr, hd⟩
  · exact hd
  · cases hi : args.find? dependenciesLabel with
    | none => rw [dependencyArray?, hi]
    | some item =>
      rw [dependencyArray?, hi] at hd ⊢
      simp only [arrayAt?] at hd ⊢
      cases hc : (textOf ps)[item.value.start]? with
      | none =>
        rw [hc] at hd
        cases r with
        | ok list => simp [Except.map] at hd
        | error e =>
          obtain rfl : ScanError.pastEnd = e := Except.error.inj hd
          exact absurd (hr.structural _ rfl) (by decide)
      | some c =>
        have hne : c ≠ '[' := by
          rintro rfl
          exact hn ⟨item, hi, hc⟩
        split
        · simp at *
        · exact absurd (Option.some.inj ‹some c = some '['›) hne
        · rfl

lemma addPackage_not_array : (addPackage t reference).outcome = .error .dependenciesNotArray ↔
    ∃ args, packageArguments? t = .ok (some args) ∧ (args.find? dependenciesLabel).isSome ∧
      ¬Bracketed t args := by
  have hmap : (addPackage t reference).outcome = .error .dependenciesNotArray ↔
      placePackage t reference = .error .dependenciesNotArray := by
    rw [addPackage_outcome]
    cases placePackage t reference <;> simp [Except.map]
  rw [hmap, placePackage]
  constructor
  · intro h
    cases hp : packageArguments? t with
    | error cause => simp [hp, Except.mapError, bind, Except.bind] at h
    | ok args =>
      rw [hp] at h
      cases args with
      | none => simp [Except.mapError, bind, Except.bind, throw, throwThe, MonadExceptOf.throw] at h
      | some args =>
        cases hd : dependencyArray? t args with
        | error cause => simp [hd, Except.mapError, bind, Except.bind] at h
        | ok list =>
          simp only [hd, Except.mapError, bind, Except.bind] at h
          cases list with
          | none =>
            refine ⟨args, rfl, ?_, not_bracketed_of_none hd⟩
            cases hadd : addList t args (renderDeclaration reference) with
            | ok t' => simp [hadd, pure, Except.pure] at h
            | error e =>
              rw [hadd] at h
              obtain rfl := Except.error.inj h
              rcases addList_error hadd with ⟨-, hsome⟩ | he
              · exact hsome
              · simp at he
          | some list => rcases addToList_error h with ⟨cause, -, he⟩ | he <;> simp at he
  · rintro ⟨args, hp, hsome, hn⟩
    obtain ⟨ps, hl, rfl⟩ : ∃ ps, Lexed ps ∧ textOf ps = t := by
      cases hos : Anchor.packageCall.codeOccurrences t 0 t.length with
      | error cause => simp [packageArguments?, hos, bind, Except.bind] at hp
      | ok os => exact exists_pieces hos
    obtain ⟨a, w, b, z, hh⟩ := exists_holds hl hp
    obtain ⟨r, hr, hp'⟩ := packageArguments?_holds hl hh
    rw [hp] at hp'
    rcases hr with ⟨-, pos, rfl⟩ | ⟨args', cs, hargs, rfl⟩
    · simp [Except.map] at hp'
    · obtain rfl : args = args' := Option.some.inj (Except.ok.inj hp')
      rw [hp]
      simp only [dependencyArray?_eq_none hargs hl rfl hh.balanced hh.pieces hn, Except.mapError, bind,
        Except.bind, addList, hsome, if_true]

lemma targetDependencies?_eq_none {call : Call} {w : Text} (hl : Lexed ps) (h : Stands ps call a w z) :
    targetDependencies? (textOf ps) call.span = .ok none ↔
      ∃ args, targetArguments? (textOf ps) call.span = .ok (some args) ∧ ¬Bracketed (textOf ps) args := by
  obtain ⟨r, hr, ht⟩ := targetArguments?_stands hl h
  rw [targetDependencies?, ht]
  rcases hr with ⟨-, pos, rfl⟩ | ⟨args, cs, hargs, rfl⟩
  · simp [Except.map, bind, Except.bind]
  · simp only [Except.map, bind, Except.bind, Except.ok.injEq, Option.some.injEq, exists_eq_left']
    exact ⟨not_bracketed_of_none, dependencyArray?_eq_none hargs hl rfl h.balanced h.opened⟩

lemma addTargetDependency_no_array {target identifier : Text} :
    (addTargetDependency t target identifier).outcome = .error (.noDependencyArray target) ↔
      ∃ ts found args, (locateTargets t).outcome = .ok ts ∧ ts.find? (·.name = target) = some found ∧
        targetArguments? t found.span = .ok (some args) ∧ ¬Bracketed t args := by
  rw [addTargetDependency, Attempt.bind_outcome, Attempt.mapError_outcome]
  cases hloc : (locateTargets t).outcome with
  | error cause => simp [Except.mapError, Except.bind]
  | ok ts =>
    obtain ⟨ps, shown, rfl, hshown, rfl⟩ := locateTargets_eq_ok.mp hloc
    simp only [Except.mapError, Except.bind]
    cases hfind : (shown.map targetOf).find? (fun t => t.name = target) with
    | none => simp [hfind]
    | some found =>
      obtain ⟨s, hs, rfl⟩ := List.mem_map.mp (List.mem_of_find?_eq_some hfind)
      obtain ⟨a, w, z, hst⟩ := hshown.stands hs
      have harray := targetDependencies?_eq_none hshown.lexed hst
      simp only [Except.ok.injEq, exists_and_left, exists_eq_left', hfind, Option.some.injEq]
      rw [Attempt.bind_outcome, Attempt.ofExcept_outcome]
      refine Iff.trans ?_ harray
      change _ ↔ targetDependencies? (textOf ps) (targetOf s).span = .ok none
      cases hd : targetDependencies? (textOf ps) (targetOf s).span with
      | error cause => simp [Except.bind]
      | ok list =>
        cases list with
        | none => simp [Except.bind]
        | some array =>
          simp only [Except.bind]
          split_ifs
          · simp [Attempt.bind_outcome, Except.bind]
          · rw [Attempt.bind_outcome, Attempt.ofExcept_outcome]
            cases appendElement (textOf ps) array (StringLiteral.encode identifier) <;>
              simp [Except.bind, Attempt.bind_outcome]

/-- A value is refused exactly if it does not begin with a bracket. -/
theorem refused_iff_not_bracketed (t : Text) (reference : Reference) (target identifier : Text) :
    ((addPackage t reference).outcome = .error .dependenciesNotArray ↔
      ∃ args, packageArguments? t = .ok (some args) ∧ (args.find? dependenciesLabel).isSome ∧
        ¬Bracketed t args) ∧
    ((addTargetDependency t target identifier).outcome = .error (.noDependencyArray target) ↔
      ∃ ts found args, (locateTargets t).outcome = .ok ts ∧ ts.find? (·.name = target) = some found ∧
        targetArguments? t found.span = .ok (some args) ∧ ¬Bracketed t args) :=
  ⟨addPackage_not_array, addTargetDependency_no_array⟩

def longerList : Text := "let package = Package(name: \"P\", dependencies: [] + more)".toList

/-- A declaration is put into an array with which the value only begins. -/
theorem not_addPackage_whole_value : ¬∀ t reference args item, packageArguments? t = .ok (some args) →
    args.find? dependenciesLabel = some item → ¬SpansValue t item.value →
      ∃ e, (addPackage t reference).outcome = .error e ∧ e.isStructural = true := by
  intro h
  have hargs : packageArguments? longerList = .ok (some ⟨21, 56,
      [⟨some nameLabel, ⟨22, 31⟩, ⟨28, 31⟩, some 31⟩,
       ⟨some dependenciesLabel, ⟨33, 56⟩, ⟨47, 56⟩, none⟩]⟩) := by
    decide +kernel
  have harray : arrayAt? longerList ⟨47, 56⟩ = .ok (some ⟨47, 48, []⟩) := by decide +kernel
  have hadded : (addPackage longerList newPackage).outcome.isOk = true := by decide +kernel
  obtain ⟨e, he, -⟩ := h longerList newPackage _
    ⟨some dependenciesLabel, ⟨33, 56⟩, ⟨47, 56⟩, none⟩ hargs rfl (by
    rintro ⟨list, hlist, hstop⟩
    obtain rfl := Option.some.inj (Except.ok.inj (harray.symm.trans hlist))
    simp at hstop)
  rw [he] at hadded
  simp [Except.isOk, Except.toBool] at hadded

end PackageInstaller.Manifest
