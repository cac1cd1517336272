import PackageInstaller.Proofs.Reading

/-! What the readers find in the first package call of a text: its arguments, the list among them, and
the URLs declared there. -/

namespace PackageInstaller.Manifest

def packageSites (ps : List Piece) : List Site := sitesFrom .packageCall [] 0 none ps

/-- The first package call stands after `a` and its word `w`, and holds `b`. -/
structure Holds (ps a : List Piece) (w : Text) (b z : List Piece) : Prop where
  pieces : ps = a ++ chars ('P' :: w) ++ .char '(' :: (b ++ .char ')' :: z)
  word : ∃ v, w = packageWord.tail ++ v ∧ ∀ c ∈ v, Text.isBlank c = true
  balanced : Balanced b
  first : ∃ s rest, packageSites ps = s :: rest ∧ s.inside = b ++ .char ')' :: z ∧
    s.occurrence.span = ⟨(textOf a).length, (textOf a).length + (w.length + 2)⟩

def isDeclaration (v : List Piece) : Bool := (declarationLength? (textOf v)).isSome

def declarationBody? (v : List Piece) : Option (List Piece) :=
  (declarationLength? (textOf v)).bind fun n => interior? [')'] (v.drop n)

def urlIn (cs : List (List Piece)) : Option Text :=
  ((labelled urlLabel cs).or (labelled pathLabel cs)).bind fun c => stringOf (valueOf c)

def urlOf (v : List Piece) : Option (Option Text) :=
  match declarationBody? v with
  | none => some none
  | some b => (contents b).map urlIn

def urlsIn : List (List Piece) → Option (List Text)
  | [] => some []
  | e :: es =>
    if isDeclaration (valueOf e) then
      (urlOf (valueOf e)).bind fun url => (urlsIn es).map (url.toList ++ ·)
    else urlsIn es

def packageUrls (b : List Piece) : Option (List Text) :=
  (contents b).bind fun cs =>
    match dependencyBody? cs with
    | none => some []
    | some d => (contents d).bind urlsIn

variable {ps a b z : List Piece} {w : Text}

lemma packageOccurrences (hl : Lexed ps) :
    Anchor.packageCall.codeOccurrences (textOf ps) 0 (textOf ps).length =
      .ok ((packageSites ps).map (·.occurrence)) :=
  codeOccurrences_textOf packageCall_calls hl

lemma packageArguments?_of_nil (hl : Lexed ps) (h : packageSites ps = []) :
    packageArguments? (textOf ps) = .ok none := by
  rw [packageArguments?, packageOccurrences hl, h]
  rfl

lemma packageArguments?_holds (hl : Lexed ps) (h : Holds ps a w b z) :
    ∃ r, Listed ps (a ++ chars ('P' :: w)) b r ∧ packageArguments? (textOf ps) = r.map some := by
  refine ⟨_, splitArguments_listed hl (o := '(') rfl h.balanced h.pieces, ?_⟩
  obtain ⟨s, rest, hs, -, hspan⟩ := h.first
  have hop : s.occurrence.opener = (textOf (a ++ chars ('P' :: w))).length := by
    simp [Occurrence.opener, hspan]
  rw [packageArguments?, packageOccurrences hl, hs]
  simp only [bind, Except.bind, List.map_cons, hop]
  cases splitArguments (textOf ps) (textOf (a ++ chars ('P' :: w))).length <;> rfl

lemma packageSites_shape (hl : Lexed ps) {s : Site} {rest : List Site} (h : packageSites ps = s :: rest) :
    ∃ a w, ps = a ++ chars ('P' :: w) ++ .char '(' :: s.inside ∧
      (∃ v, w = packageWord.tail ++ v ∧ ∀ c ∈ v, Text.isBlank c = true) ∧
      s.occurrence.span = ⟨(textOf a).length, (textOf a).length + (w.length + 2)⟩ := by
  have hmem : s ∈ sitesFrom .packageCall [] 0 none ps := by
    change s ∈ packageSites ps
    rw [h]
    exact List.mem_cons_self
  obtain ⟨a, -, w, before, -, -, hps, hspan, hm⟩ := exists_of_mem_sitesFrom packageCall_calls
    (by rwa [List.append_nil]) hmem
  rw [List.append_nil] at hps
  refine ⟨a, w, by rw [hps]; simp [chars], ?_, by simpa using hspan⟩
  simp only [Anchor.matchHead?] at hm
  split_ifs at hm
  obtain ⟨n, hn, he⟩ := Option.map_eq_some_iff.mp hm
  obtain ⟨rfl, -⟩ := Prod.mk.inj he
  exact callLength?_word hn

lemma holds_of_first (hl : Lexed ps) {s : Site} {rest : List Site} (h : packageSites ps = s :: rest)
    (hin : s.inside = b ++ .char ')' :: z) (hb : Balanced b) : ∃ a w, Holds ps a w b z := by
  obtain ⟨a, w, hps, hword, hspan⟩ := packageSites_shape hl h
  exact ⟨a, w, by rw [← hin]; exact hps, hword, hb, s, rest, h, hin, hspan⟩

lemma exists_opener_of_first (hl : Lexed ps) {s : Site} {rest : List Site} (h : packageSites ps = s :: rest) :
    ∃ a, ps = a ++ .char '(' :: s.inside ∧ s.occurrence.opener = (textOf a).length := by
  obtain ⟨a, w, hps, -, hspan⟩ := packageSites_shape hl h
  exact ⟨a ++ chars ('P' :: w), hps, by simp [Occurrence.opener, hspan]⟩

lemma holds_of_closing (hl : Lexed ps) {s : Site} {rest : List Site} {n : Nat} (h : packageSites ps = s :: rest)
    (hc : findClosing (textOf ps) s.occurrence.opener = .ok n) : ∃ a w b z, Holds ps a w b z := by
  obtain ⟨a, hps, hop⟩ := exists_opener_of_first hl h
  have hlex : Lexed s.inside := by
    rw [hps] at hl
    exact hl.right.tail
  rw [hop, hps] at hc
  obtain ⟨b, hb, -⟩ := (findClosing_iff hlex (o := '(') rfl).mp hc
  obtain ⟨z, hz, hbal⟩ := (interior?_iff (o := '(') rfl).mp hb
  obtain ⟨a, w, hh⟩ := holds_of_first hl h hz hbal
  exact ⟨a, w, b, z, hh⟩

lemma exists_holds {args : ArgumentList} (hl : Lexed ps)
    (h : packageArguments? (textOf ps) = .ok (some args)) : ∃ a w b z, Holds ps a w b z := by
  rw [packageArguments?, packageOccurrences hl] at h
  cases hs : packageSites ps with
  | nil =>
    rw [hs] at h
    simp [bind, Except.bind, pure, Except.pure] at h
  | cons s rest =>
    rw [hs] at h
    cases hc : findClosing (textOf ps) s.occurrence.opener with
    | error e =>
      simp only [bind, Except.bind, List.map_cons, splitArguments, hc] at h
      simp at h
    | ok n => exact holds_of_closing hl hs hc

lemma declarationLength?_shape {t : Text} {n : Nat} (h : declarationLength? t = some n) :
    ∃ w r, t = w ++ '(' :: r ∧ n = w.length + 1 ∧ ∀ c ∈ w, Ordinary c := by
  have key : ∀ word : Text, (∀ c ∈ word, Ordinary c) → callLength? word t = some n →
      ∃ w r, t = w ++ '(' :: r ∧ n = w.length + 1 ∧ ∀ c ∈ w, Ordinary c := by
    intro word hword h
    obtain ⟨w, r, rfl, hw, rfl⟩ := callLength?_eq_some.mp h
    refine ⟨word ++ w, r, rfl, by simp, fun c hc => ?_⟩
    rcases List.mem_append.mp hc with hc | hc
    · exact hword c hc
    · exact ordinary_of_isBlank (hw c hc)
  unfold declarationLength? at h
  split_ifs at h
  · exact key _ (by decide) h
  · exact key _ (by decide) h

/-- Where a package declaration begins, what it holds stands between balanced parentheses. -/
lemma exists_declarationBody {v q : List Piece} {n : Nat} (hl : Lexed (v ++ q)) (hb : Balanced v)
    (h : declarationLength? (textOf v) = some n) :
    ∃ w b z, v = chars w ++ .char '(' :: (b ++ .char ')' :: z) ∧ n = w.length + 1 ∧ Balanced b ∧
      (∀ c ∈ w, Ordinary c) ∧ declarationBody? v = some b := by
  obtain ⟨w, r, ht, rfl, hw⟩ := declarationLength?_shape h
  obtain ⟨rs, rfl, -⟩ := hl.left.exists_word ht (fun c hc => (hw c hc).1) (by decide)
  have hrest := (balanced_chars fun c hc => (hw c hc).2.1).right hb
  rw [Balanced, walk_opener (k := ')') rfl] at hrest
  obtain ⟨b, z, rfl, hbal, -⟩ := exists_closed hrest
  refine ⟨w, b, z, rfl, rfl, hbal, hw, ?_⟩
  rw [declarationBody?, h, Option.bind_some, drop_word]
  exact (interior?_iff (o := '(') rfl).mpr ⟨z, rfl, hbal⟩

variable {item : Argument} {c : List Piece}

lemma slice_value (h : Reads ps item c) (hl : Lexed ps) :
    (textOf ps).slice item.value.start item.value.stop = textOf (valueOf c) := by
  obtain ⟨-, a, q, z, hps, -, hv⟩ := h.value hl
  rw [hv, hps, textOf_append, textOf_append, slice_mid]

lemma isPackageDeclaration_reads (h : Reads ps item c) (hl : Lexed ps) :
    isPackageDeclaration (textOf ps) item.value = isDeclaration (valueOf c) := by
  rw [isPackageDeclaration, slice_value h hl, isDeclaration]

lemma declarationUrl?_reads (h : Reads ps item c) (hl : Lexed ps) :
    Told (urlOf (valueOf c)) (declarationUrl? (textOf ps) item.value) := by
  obtain ⟨hbal, a, q, z, hps, -, hv⟩ := h.value hl
  rw [declarationUrl?, declarationArguments?, slice_value h hl, urlOf]
  cases hd : declarationLength? (textOf (valueOf c)) with
  | none =>
    rw [declarationBody?, hd]
    rfl
  | some n =>
    have hlex : Lexed (valueOf c ++ q :: z) := by
      rw [hps, List.append_assoc] at hl
      exact hl.right
    obtain ⟨w, b, y, hvc, rfl, hb, hw, hbody⟩ := exists_declarationBody hlex hbal hd
    have hps' : ps = a ++ chars w ++ .char '(' :: (b ++ .char ')' :: (y ++ q :: z)) := by
      rw [hps, hvc]
      simp
    have hop : item.value.start + (w.length + 1) - 1 = (textOf (a ++ chars w)).length := by
      simp [hv]
    have hlist := splitArguments_listed hl (o := '(') rfl hb hps'
    simp only [hbody, hop]
    rcases hlist with ⟨hn, pos, he⟩ | ⟨args, cs, hargs, he⟩
    · rw [he, hn]
      exact ⟨pos, rfl⟩
    · rw [he, hargs.elements]
      have hurl := find?_reads hargs.reads urlLabel
      have hpath := find?_reads hargs.reads pathLabel
      simp only [Except.map, bind, Except.bind, ArgumentList.find?, Told, Option.map_some, urlIn]
      generalize args.items.find? (·.label = some urlLabel) = x at hurl ⊢
      generalize labelled urlLabel cs = x' at hurl ⊢
      generalize args.items.find? (·.label = some pathLabel) = y at hpath ⊢
      generalize labelled pathLabel cs = y' at hpath ⊢
      cases hurl with
      | some hx =>
        simp only [Option.some_or, Option.bind_some, valueAt?_reads hx hl]
        rfl
      | none =>
        cases hpath with
        | none => rfl
        | some hy =>
          simp only [Option.none_or, Option.bind_some, valueAt?_reads hy hl]
          rfl

lemma filterMap_indices {α : Type} (p : α → Bool) (xs ys : List α) :
    (((ys.zipIdx xs.length).filter fun (y, _) => p y).map (·.2)).filterMap ((xs ++ ys)[·]?) =
      ys.filter p := by
  induction ys generalizing xs with
  | nil => rfl
  | cons y ys ih =>
    have hstep := ih (xs ++ [y])
    rw [List.append_assoc, List.singleton_append, List.length_append, List.length_singleton] at hstep
    rw [List.zipIdx_cons, List.filter_cons, List.filter_cons]
    split_ifs with hy
    · rw [List.map_cons, List.filterMap_cons, hstep]
      simp
    · exact hstep

lemma existing_items (t : Text) (list : ArgumentList) :
    (existingDependencies t list).filterMap (list.items[·]?) =
      list.items.filter fun item => isPackageDeclaration t item.value := by
  have := filterMap_indices (fun item : Argument => isPackageDeclaration t item.value) [] list.items
  rw [List.nil_append, List.length_nil] at this
  exact this

lemma told_urls {items : List Argument} {es : List (List Piece)} (hl : Lexed ps)
    (h : List.Forall₂ (Reads ps) items es) : Told (urlsIn es)
      (((items.filter fun item => isPackageDeclaration (textOf ps) item.value).mapM fun item =>
        declarationUrl? (textOf ps) item.value).map (List.filterMap id)) := by
  induction h with
  | nil => rfl
  | @cons item e items es hr _ ih =>
    rw [urlsIn, List.filter_cons, isPackageDeclaration_reads hr hl]
    split_ifs with hd
    · have hurl := declarationUrl?_reads hr hl
      rw [List.mapM_cons]
      cases hu : urlOf (valueOf e) with
      | none =>
        rw [hu] at hurl
        obtain ⟨pos, hurl⟩ := hurl
        rw [hurl]
        exact ⟨pos, rfl⟩
      | some url =>
        rw [hu] at hurl
        rw [hurl]
        simp only [bind, Except.bind, Option.bind_some]
        generalize (items.filter fun item => isPackageDeclaration (textOf ps) item.value).mapM
          (fun item => declarationUrl? (textOf ps) item.value) = r at ih ⊢
        cases hes : urlsIn es with
        | none =>
          rw [hes] at ih
          obtain ⟨pos, ih⟩ := ih
          cases r with
          | error e => exact ⟨pos, by simpa [Except.map] using ih⟩
          | ok later => simp [Except.map] at ih
        | some us =>
          rw [hes] at ih
          obtain ⟨later, rfl, rfl⟩ := map_eq_ok.mp ih
          cases url <;> rfl
    · exact ih

lemma urlsIn_of_declaresUrl {items : List Argument} {es : List (List Piece)} {wanted : Text} (hl : Lexed ps)
    (h : List.Forall₂ (Reads ps) items es) (hd : declaresUrl (textOf ps) wanted
      (items.filter fun item => isPackageDeclaration (textOf ps) item.value) = .ok false) :
    ∃ us, urlsIn es = some us := by
  induction h with
  | nil => exact ⟨[], rfl⟩
  | @cons item e items es hr _ ih =>
    rw [List.filter_cons, isPackageDeclaration_reads hr hl] at hd
    rw [urlsIn]
    split_ifs at hd ⊢ with hdecl
    · have hurl := declarationUrl?_reads hr hl
      rw [declaresUrl] at hd
      cases hu : urlOf (valueOf e) with
      | none =>
        rw [hu] at hurl
        obtain ⟨pos, hurl⟩ := hurl
        simp [hurl, bind, Except.bind] at hd
      | some url =>
        rw [hu] at hurl
        have hurl : declarationUrl? (textOf ps) item.value = .ok url := hurl
        have hrest : declaresUrl (textOf ps) wanted
            (items.filter fun item => isPackageDeclaration (textOf ps) item.value) = .ok false := by
          rw [hurl] at hd
          cases url with
          | none => exact hd
          | some url =>
            simp only [bind, Except.bind] at hd
            split_ifs at hd
            · simp [pure, Except.pure] at hd
            · exact hd
        obtain ⟨us, hus⟩ := ih hrest
        exact ⟨url.toList ++ us, by rw [hus]; rfl⟩
    · exact ih hd

/-- The URLs declared in the first package call are those that its list shows. -/
theorem declaredUrls_holds (hl : Lexed ps) (h : Holds ps a w b z) :
    Told (packageUrls b) (declaredUrls (textOf ps)) := by
  obtain ⟨r, hr, hp⟩ := packageArguments?_holds hl h
  rw [declaredUrls, hp, packageUrls]
  rcases hr with ⟨hn, pos, rfl⟩ | ⟨args, cs, hargs, rfl⟩
  · rw [hn]
    exact ⟨pos, rfl⟩
  · rw [hargs.elements]
    simp only [Except.map, bind, Except.bind, Option.bind_some]
    rcases dependencyArray?_listed hargs hl rfl h.balanced h.pieces with
      ⟨hn, hd⟩ | ⟨y, d, rest, hs, -, r, hr, hd⟩
    · rw [hd, hn]
      rfl
    · rw [hd, hs]
      rcases hr with ⟨hn, pos, rfl⟩ | ⟨list, es, hlist, rfl⟩
      · simp only [hn, Except.map]
        exact ⟨pos, rfl⟩
      · simp only [hlist.elements, Except.map, Option.bind_some]
        have htold := told_urls hl hlist.reads
        rw [urlsAt, existing_items]
        simp only [bind, Except.bind, pure, Except.pure]
        generalize (list.items.filter fun item => isPackageDeclaration (textOf ps) item.value).mapM
          (fun item => declarationUrl? (textOf ps) item.value) = r at htold ⊢
        cases r <;> exact htold

theorem declaredUrls_of_nil (hl : Lexed ps) (h : packageSites ps = []) :
    declaredUrls (textOf ps) = .ok [] := by
  rw [declaredUrls, packageArguments?_of_nil hl h]
  rfl

lemma declaredUrls_cases {us : List Text} (hl : Lexed ps) (h : declaredUrls (textOf ps) = .ok us) :
    (packageSites ps = [] ∧ us = []) ∨ ∃ a w b z, Holds ps a w b z ∧ packageUrls b = some us := by
  cases hp : packageArguments? (textOf ps) with
  | error e =>
    rw [declaredUrls, hp] at h
    simp [bind, Except.bind] at h
  | ok args =>
    cases args with
    | none =>
      left
      refine ⟨?_, ?_⟩
      · by_contra hn
        obtain ⟨s, rest, hs⟩ := List.exists_cons_of_ne_nil hn
        rw [packageArguments?, packageOccurrences hl, hs] at hp
        simp only [bind, Except.bind, List.map_cons] at hp
        cases hsp : splitArguments (textOf ps) s.occurrence.opener with
        | error e => simp [hsp] at hp
        | ok args => simp [hsp, pure, Except.pure] at hp
      · rw [declaredUrls, hp] at h
        simpa [bind, Except.bind, pure, Except.pure, eq_comm] using h
    | some args =>
      obtain ⟨a, w, b, z, hh⟩ := exists_holds hl hp
      refine .inr ⟨a, w, b, z, hh, ?_⟩
      have htold := declaredUrls_holds hl hh
      cases hu : packageUrls b with
      | none =>
        rw [hu] at htold
        obtain ⟨pos, htold⟩ := htold
        rw [htold] at h
        simp at h
      | some us' =>
        rw [hu] at htold
        rw [Except.ok.inj (h.symm.trans htold)]

end PackageInstaller.Manifest
