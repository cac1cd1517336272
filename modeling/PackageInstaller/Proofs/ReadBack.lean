import PackageInstaller.Proofs.Wiring

/-! What an addition leaves can be read back: the packages that are declared, and the elements of the
dependencies of each target. -/

namespace PackageInstaller.Manifest

/-- The elements of a target's dependencies: the text of each, and the string that it reads as. -/
def elements? (t : Text) (target : Target) : Option (List (Text × Option Text)) :=
  match targetDependencies? t target.span with
  | .ok (some array) => some (array.items.map fun item =>
    (t.slice item.span.start item.span.stop, StringLiteral.valueAt? t item.value))
  | _ => none

/-- The elements with the name as the last of them, unless one of them reads as it already. -/
def withElement (name : Text) (es : List (Text × Option Text)) : List (Text × Option Text) :=
  if some name ∈ es.map (·.2) then es else es ++ [(StringLiteral.encode name, some name)]

variable {ps : List Piece} {found found' : List (Text × Call)} {s : Text × Call} {t identifier : Text}

def shownElement (c : List Piece) : Text × Option Text := (textOf c, stringOf (valueOf c))

lemma Shown.elements? (h : Shown ps found) (hs : s ∈ found) :
    elements? (textOf ps) (targetOf s) = (elementsOf s.2.body).map (·.map shownElement) := by
  obtain ⟨a, w, z, hst⟩ := h.stands hs
  have hspan : (targetOf s).span = s.2.span := rfl
  rw [Manifest.elements?, hspan]
  rcases targetDependencies?_stands h.lexed hst with
    ⟨hn, hd | ⟨pos, hd⟩⟩ | ⟨y, d, rest, es, list, -, hes, hlist, hd⟩
  · rw [hd, hn]
    rfl
  · rw [hd, hn]
    rfl
  · rw [hd, hes]
    simp only [Option.map_some, Option.some.injEq]
    exact map_reads hlist.reads fun hr => by rw [slice_reads hr, valueAt?_reads hr h.lexed, shownElement]

lemma Shown.find? (h : Shown ps found) (hs : s ∈ found) :
    (found.map targetOf).find? (·.name = s.1) = some (targetOf s) := by
  cases hf : (found.map targetOf).find? (·.name = s.1) with
  | none => exact absurd (by simp [targetOf]) (List.find?_eq_none.mp hf _ (List.mem_map_of_mem hs))
  | some target =>
    obtain ⟨s', hs', rfl⟩ := List.mem_map.mp (List.mem_of_find?_eq_some hf)
    have hname := List.find?_some hf
    rw [h.eq_of_name hs hs' (of_decide_eq_true hname)]

lemma withName_shown (hid : '\n' ∉ identifier) (es : List (List Piece)) :
    (withName identifier es).map shownElement = withElement identifier (es.map shownElement) := by
  have hmem : some identifier ∈ (es.map shownElement).map (·.2) ↔
      (es.any fun c => stringOf (valueOf c) = some identifier) = true := by
    simp [shownElement]
  rw [withName, withElement]
  by_cases hany : (es.any fun c => stringOf (valueOf c) = some identifier) = true
  · rw [if_pos hany, if_pos (hmem.mpr hany)]
  · have hread := stringOf_name hid
    rw [if_neg hany, if_neg (fun h => hany (hmem.mp h)), List.map_append, List.map_singleton, shownElement, hread,
      textOf_nameElement]

lemma mem_withElement (name : Text) (es : List (Text × Option Text)) :
    some name ∈ (withElement name es).map (·.2) := by
  rw [withElement]
  split_ifs with h
  · exact h
  · simp

variable {ps' : List Piece} {s' : Text × Call} {targets : List Text} {t' : Text}

lemma Follows.elements? (h : Follows t t' targets identifier s s') (hid : '\n' ∉ identifier)
    (hfound : Shown ps found) (hs : s ∈ found) (hfound' : Shown ps' found') (hs' : s' ∈ found')
    (ht : s.1 ∈ targets) : ∃ es, elements? (textOf ps) (targetOf s) = some es ∧
      elements? (textOf ps') (targetOf s') = some (withElement identifier es) := by
  obtain ⟨es, hes, hes'⟩ := h.edited ht
  refine ⟨es.map shownElement, ?_, ?_⟩
  · rw [hfound.elements? hs, hes, Option.map_some]
  · rw [hfound'.elements? hs', hes', Option.map_some, withName_shown hid]

lemma exists_of_wirable {target : Text} (h : wirable found target = true) : ∃ s ∈ found, s.1 = target := by
  obtain ⟨s, hs, hw⟩ := List.any_eq_true.mp h
  simp only [Bool.and_eq_true, decide_eq_true_eq] at hw
  exact ⟨s, hs, hw.1⟩

/-- What is added on one line is found in the text that comes of it, and so is what was there before. -/
theorem addition_read_back {ts : List Target} {urls : List Text} (htargets : (locateTargets t).outcome = .ok ts)
    (hurls : declaredUrls t = .ok urls) :
    (∀ reference t', ClearList t → OneLine reference → (addPackage t reference).outcome = .ok t' →
      (∃ ts', (locateTargets t').outcome = .ok ts') ∧ declaredUrls t' = .ok (urls ++ [reference.url])) ∧
    ∀ target identifier t', '\n' ∉ identifier → (addTargetDependency t target identifier).outcome = .ok t' →
      declaredUrls t' = .ok urls ∧ ∃ ts' found es, (locateTargets t').outcome = .ok ts' ∧
        ts'.find? (·.name = target) = some found ∧ elements? t' found = some es ∧
          some identifier ∈ es.map (·.2) := by
  obtain ⟨ps, found, rfl, h, rfl⟩ := locateTargets_eq_ok.mp htargets
  have hp := presents_of_declaredUrls h.lexed hurls
  constructor
  · intro reference t' hclear hone hok
    obtain ⟨a, w, b, z, hh⟩ := holds_of_addPackage h.lexed hok
    obtain ⟨ps', found', urls', rfl, h', hp', hp'', -, -⟩ :=
      addPackage_ok h hh (receptive_of_clearList h.lexed hclear) hone hok
    obtain rfl : urls' = urls := Except.ok.inj ((hp'.declaredUrls h.lexed).symm.trans hurls)
    exact ⟨⟨_, locateTargets_eq_ok.mpr ⟨ps', found', rfl, h', rfl⟩⟩, hp''.declaredUrls h'.lexed⟩
  · intro target identifier t' hid hok
    obtain ⟨ps', found', rfl, h', hf, hk⟩ := addTargetDependency_ok h hid hok
    obtain ⟨s, hs, rfl⟩ := exists_of_wirable (wirable_of_ok h hok)
    obtain ⟨s', hs', hfollows⟩ := exists_forall₂_right hf hs
    obtain ⟨es, -, hes⟩ := hfollows.elements? hid h hs h' hs' (List.mem_singleton_self _)
    refine ⟨(hk urls hp).1.declaredUrls h'.lexed, found'.map targetOf, targetOf s', withElement identifier es,
      locateTargets_eq_ok.mpr ⟨ps', found', rfl, h', rfl⟩, ?_, hes, mem_withElement _ _⟩
    rw [← hfollows.name]
    exact h'.find? hs'

lemma twoTargets_located : ∃ ts, (locateTargets twoTargets).outcome = .ok ts := by
  have hlocated : (locateTargets twoTargets).outcome.isOk = true := by decide +kernel
  cases htargets : (locateTargets twoTargets).outcome with
  | error e => simp [htargets, Except.isOk, Except.toBool] at hlocated
  | ok ts => exact ⟨ts, rfl⟩

lemma twoTargets_urls : declaredUrls twoTargets = .ok [] := by
  decide +kernel

theorem addition_read_back_twoTargets :
    (∃ t', (addPackage twoTargets newPackage).outcome = .ok t' ∧ declaredUrls t' = .ok [newPackage.url]) ∧
      ∃ t' ts found es, (addTargetDependency twoTargets ['A'] ['\"', '/', '/']).outcome = .ok t' ∧
        (locateTargets t').outcome = .ok ts ∧ ts.find? (·.name = ['A']) = some found ∧
          elements? t' found = some es ∧ some ['\"', '/', '/'] ∈ es.map (·.2) := by
  obtain ⟨ts, htargets⟩ := twoTargets_located
  have hclear : ClearList twoTargets := by decide +kernel
  have hone : OneLine newPackage := ⟨by decide +kernel, by decide +kernel⟩
  have hadded : (addPackage twoTargets newPackage).outcome.isOk = true := by decide +kernel
  have hwired : (addTargetDependency twoTargets ['A'] ['\"', '/', '/']).outcome.isOk = true := by decide +kernel
  have h := addition_read_back htargets twoTargets_urls
  constructor
  · cases hok : (addPackage twoTargets newPackage).outcome with
    | error e => simp [hok, Except.isOk, Except.toBool] at hadded
    | ok t' => exact ⟨t', rfl, (h.1 newPackage t' hclear hone hok).2⟩
  · cases hok : (addTargetDependency twoTargets ['A'] ['\"', '/', '/']).outcome with
    | error e => simp [hok, Except.isOk, Except.toBool] at hwired
    | ok t' =>
      obtain ⟨-, ts', found, es, hts', hfound, hes, hmem⟩ := h.2 ['A'] ['\"', '/', '/'] t' (by decide) hok
      exact ⟨t', ts', found, es, rfl, hts', hfound, hes, hmem⟩

/-- A name on two lines ends up in a literal that is left open at the end of its first line. -/
theorem not_addition_read_back : ¬∀ t target identifier t', (∃ ts, (locateTargets t).outcome = .ok ts) →
    (∃ urls, declaredUrls t = .ok urls) → (addTargetDependency t target identifier).outcome = .ok t' →
      ∃ ts, (locateTargets t').outcome = .ok ts := by
  intro h
  have hlost : ((addTargetDependency twoTargets ['A'] ['a', '\n', 'b']).outcome.toOption.map fun t' =>
      (locateTargets t').outcome.isOk) = some false := by decide +kernel
  cases hok : (addTargetDependency twoTargets ['A'] ['a', '\n', 'b']).outcome with
  | error e => simp [hok, Except.toOption] at hlost
  | ok t' =>
    obtain ⟨ts', hts'⟩ := h twoTargets _ _ t' twoTargets_located ⟨[], twoTargets_urls⟩ hok
    simp [hok, hts', Except.toOption, Except.isOk, Except.toBool] at hlost

end PackageInstaller.Manifest
