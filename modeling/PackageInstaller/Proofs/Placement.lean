import PackageInstaller.Proofs.Wiring

/-! Where a declared package comes to stand. The first package call is still the first. Its list has the
declaration after the last element that declares a package, and a call without a list gets one after the last
argument that has to precede it. No other argument changes. -/

namespace PackageInstaller.Manifest

/-- The list `args'` of `t'` is the list `args` of `t` with `x` after the last item that has the property. -/
structure GainsAfter (p : Argument → Bool) (t : Text) (args : ArgumentList) (x : Option Text × Text)
    (t' : Text) (args' : ArgumentList) : Prop where
  shown : ∃ n, UpToLast p n args.items ∧
    args'.shown t' = (args.shown t).take n ++ x :: (args.shown t).drop n
  endsInComma : args'.endsInComma = args.endsInComma

/-- The dependency list of the call has the declaration as one more element. -/
structure ListGains (reference : Reference) (t : Text) (args : ArgumentList) (t' : Text)
    (args' : ArgumentList) : Prop where
  list : ∃ list list', dependencyArray? t args = .ok (some list) ∧ dependencyArray? t' args' = .ok (some list') ∧
    GainsAfter (fun item => isPackageDeclaration t item.value) t list (none, renderDeclaration reference) t' list'
  others : ∃ before text text' after, args.shown t = before ++ (some dependenciesLabel, text) :: after ∧
    args'.shown t' = before ++ (some dependenciesLabel, text') :: after ∧
      ∀ shown ∈ before, shown.1 ≠ some dependenciesLabel
  endsInComma : args'.endsInComma = args.endsInComma

/-- The call has a dependency list as one more argument, with the declaration in it. -/
structure CallGains (reference : Reference) (t : Text) (args : ArgumentList) (t' : Text)
    (args' : ArgumentList) : Prop where
  absent : args.find? dependenciesLabel = none
  anchored : ∃ item ∈ args.items, precedesDependencies item.label = true
  argument : ∃ text, GainsAfter (fun item => precedesDependencies item.label) t args
    (some dependenciesLabel, text) t' args'
  list : ∃ list', dependencyArray? t' args' = .ok (some list') ∧
    list'.shown t' = [(none, renderDeclaration reference)] ∧ list'.endsInComma = false

variable {ps ps' a a' b d d' x z : List Piece} {w t t' : Text} {args list list' : ArgumentList}
  {cs cs₁ cs₂ es : List (List Piece)} {reference : Reference}

lemma Holds.arguments (h : Holds ps a w b z) (hl : Lexed ps) (hcs : contents b = some cs) :
    ∃ args, splitArguments (textOf ps) (textOf (a ++ chars ('P' :: w))).length = .ok args ∧
      Lists ps (a ++ chars ('P' :: w)) b args cs :=
  (splitArguments_listed hl (o := '(') rfl h.balanced h.pieces).lists hcs

lemma Holds.call (h : Holds ps a w b z) (hl : Lexed ps) : ∃ call rest,
    Anchor.packageCall.codeOccurrences (textOf ps) 0 (textOf ps).length = .ok (call :: rest) ∧
      (packageSites ps).head?.map (·.occurrence) = some call ∧
        call.opener = (textOf (a ++ chars ('P' :: w))).length := by
  obtain ⟨s, rest, hs, -, hspan⟩ := h.first
  refine ⟨s.occurrence, rest.map (·.occurrence), ?_, ?_, ?_⟩
  · rw [packageOccurrences hl, hs, List.map_cons]
  · rw [hs]
    rfl
  · simp [Occurrence.opener, hspan]

lemma Lists.gainsAfter {p : Argument → Bool} {q : List Piece → Bool} (h : Lists ps a d list (cs₁ ++ cs₂))
    (h' : Lists ps' a' d' list' (cs₁ ++ x :: cs₂)) (hpq : ∀ {item c}, Reads ps item c → p item = q c)
    (hlast : UpToLast q cs₁.length (cs₁ ++ cs₂))
    (hcount : (segments d').length = (segments d).length + if cs₁ ++ cs₂ = [] then 0 else 1) :
    GainsAfter p (textOf ps) list (entry x) (textOf ps') list' := by
  obtain ⟨hshown, hcomma⟩ := h.inserted h' hcount
  exact ⟨⟨_, hlast.of_map (map_reads h.reads hpq).symm, hshown⟩, hcomma⟩

lemma Lists.endsInComma_eq (h : Lists ps a d list cs) (h' : Lists ps' a' d' list' es)
    (hlen : es.length = cs.length) (hcount : (segments d').length = (segments d).length) :
    list'.endsInComma = list.endsInComma := by
  have hitems : list'.items.length = list.items.length := by
    rw [h.reads.length_eq, h'.reads.length_eq, hlen]
  rw [Bool.eq_iff_iff, endsInComma_iff h.items, endsInComma_iff h'.items, hcount, hitems,
    ← List.length_pos_iff, ← List.length_pos_iff, hitems]

variable {e : Splice} {f : Text → Text} {l r : List Piece}

lemma listGains_of_inserts {y rest : List Piece} (hh : Holds e.source a w b z) (hl : Lexed e.source)
    (hs : Shows b y d rest) (hes : contents d = some (cs₁ ++ cs₂)) (hd : d = l ++ e.old ++ r)
    (hlast : UpToLast (fun c => isDeclaration (valueOf c)) cs₁.length (cs₁ ++ cs₂))
    (hin : Inserts e f (a ++ chars ('P' :: w) ++ .char '(' :: y) l r (rest ++ .char ')' :: z) '[' ']' cs₁ cs₂
      (declarationElement reference))
    (hh' : Holds e.target a w (y ++ .char '[' :: ((l ++ e.new ++ r) ++ .char ']' :: rest)) z) : ∃ args args',
      splitArguments (textOf e.source) (textOf (a ++ chars ('P' :: w))).length = .ok args ∧
        splitArguments (textOf e.target) (textOf (a ++ chars ('P' :: w))).length = .ok args' ∧
          ListGains reference (textOf e.source) args (textOf e.target) args' := by
  obtain ⟨n, us, vs, hfirst, hall⟩ := hs.argument
  obtain ⟨c, hcs, hlabel, hbody, hcount⟩ := hall hs.interior
  obtain ⟨c', hcs', hlabel', hbody', hcount'⟩ := hall ((hin.left.append hin.even.new).append hin.right)
  rw [← hs.pieces] at hcs hcount
  obtain ⟨args, hargs, hlists⟩ := hh.arguments hl hcs
  obtain ⟨args', hargs', hlists'⟩ := hh'.arguments hin.lexed hcs'
  have hnamed : ∀ {c d}, labelOf c = some dependenciesLabel → arrayBody? (valueOf c) = some d →
      dependencyBody? (us ++ c :: vs) = some d := fun hc hd => by
    rw [dependencyBody?, labelled_append_cons hfirst hc, Option.bind_some, hd]
  obtain ⟨_, _, list, -, harray, hlist⟩ :=
    hlists.dependencies hl rfl hh.balanced hh.pieces (hnamed hlabel hbody) hes
  obtain ⟨_, _, list', -, harray', hlist'⟩ :=
    hlists'.dependencies hin.lexed rfl hh'.balanced hh'.pieces (hnamed hlabel' hbody') hin.contents
  refine ⟨args, args', hargs, hargs', ⟨list, list', harray, harray', ?_⟩,
    ⟨us.map entry, textOf c, textOf c', vs.map entry, ?_, ?_, fun shown hshown => ?_⟩, ?_⟩
  · have hentry : (none, renderDeclaration reference) = entry (declarationElement reference) := by
      rw [entry, textOf_declarationElement]
      rfl
    rw [hentry]
    exact hlist.gainsAfter hlist' (fun hr => isPackageDeclaration_reads hr hl) hlast (by rw [hd, hin.separators])
  · rw [hlists.shown, List.map_append, List.map_cons, entry, hlabel]
  · rw [hlists'.shown, List.map_append, List.map_cons, entry, hlabel']
  · obtain ⟨x, hx, rfl⟩ := List.mem_map.mp hshown
    exact hfirst x hx
  · exact hlists.endsInComma_eq hlists' (by simp) (hcount'.trans hcount.symm)

lemma callGains_of_inserts {v v' : Text} (hh : Holds e.source a w b z) (hl : Lexed e.source)
    (hcs : contents b = some (cs₁ ++ cs₂)) (hnone : labelled dependenciesLabel (cs₁ ++ cs₂) = none)
    (hne : cs₁ ≠ []) (hb : b = l ++ e.old ++ r)
    (hlast : UpToLast (fun c => precedesDependencies (labelOf c)) cs₁.length (cs₁ ++ cs₂))
    (hv : ∀ c ∈ v, Text.isBlank c = true) (hv' : ∀ c ∈ v', Text.isBlank c = true) (hone : OneLine reference)
    (hin : Inserts e f (a ++ chars ('P' :: w)) l r z '(' ')' cs₁ cs₂ (listElement reference v v'))
    (hh' : Holds e.target a w (l ++ e.new ++ r) z) : ∃ args args',
      splitArguments (textOf e.source) (textOf (a ++ chars ('P' :: w))).length = .ok args ∧
        splitArguments (textOf e.target) (textOf (a ++ chars ('P' :: w))).length = .ok args' ∧
          CallGains reference (textOf e.source) args (textOf e.target) args' := by
  obtain ⟨hlabel, d, hd, hdc, hone'⟩ := listElement_reads hone.1 hone.2 hv hv'
  obtain ⟨args, hargs, hlists⟩ := hh.arguments hl hcs
  obtain ⟨args', hargs', hlists'⟩ := hh'.arguments hin.lexed hin.contents
  have hfirst : ∀ c ∈ cs₁, labelOf c ≠ some dependenciesLabel := fun c hc => by
    simpa using List.find?_eq_none.mp hnone c (List.mem_append_left _ hc)
  have hbody : dependencyBody? (cs₁ ++ listElement reference v v' :: cs₂) = some d := by
    rw [dependencyBody?, labelled_append_cons hfirst hlabel, Option.bind_some, hd]
  obtain ⟨_, _, list', -, harray', hlist'⟩ :=
    hlists'.dependencies hin.lexed rfl hh'.balanced hh'.pieces hbody hdc
  refine ⟨args, args', hargs, hargs', ?_, ?_, ⟨textOf (listElement reference v v'), ?_⟩, list', harray', ?_, ?_⟩
  · have hfind := find?_reads hlists.reads dependenciesLabel
    rw [hnone] at hfind
    rw [ArgumentList.find?]
    generalize args.items.find? _ = found at hfind
    cases hfind
    rfl
  · have hmap : args.items.map (fun item => precedesDependencies item.label) =
        (cs₁ ++ cs₂).map fun c => precedesDependencies (labelOf c) := map_reads hlists.reads fun hr => by rw [hr.label]
    have hanchor := (upToLast_append.mp hlast).1 _ (List.getLast?_eq_some_getLast hne)
    have hmem : true ∈ args.items.map fun item => precedesDependencies item.label := by
      rw [hmap]
      exact List.mem_map.mpr ⟨_, List.mem_append_left _ (List.getLast_mem hne), hanchor⟩
    exact List.mem_map.mp hmem
  · have hentry : (some dependenciesLabel, textOf (listElement reference v v')) = entry (listElement reference v v') := by
      rw [entry, hlabel]
    rw [hentry]
    exact hlists.gainsAfter hlists' (fun hr => by rw [hr.label]) hlast (by rw [hb, hin.separators])
  · rw [hlist'.shown, List.map_singleton, entry, textOf_declarationElement]
    rfl
  · rw [← Bool.not_eq_true, endsInComma_iff hlist'.items, hone', hlist'.reads.length_eq]
    simp

lemma Declaring.reads {p q v y : List Piece} {o k : Char} {url : Text}
    (h : Declaring e (a ++ chars ('P' :: w)) b url q v) (hin : Inserts e f p l r y o k cs₁ cs₂ x)
    (hl : Lexed e.source) (hh : Holds e.source a w b z) : Holds e.target a w (q ++ e.new ++ v) z ∧
      ∃ call rest rest' urls, call.opener = (textOf (a ++ chars ('P' :: w))).length ∧
        Anchor.packageCall.codeOccurrences (textOf e.source) 0 (textOf e.source).length = .ok (call :: rest) ∧
        Anchor.packageCall.codeOccurrences (textOf e.target) 0 (textOf e.target).length = .ok (call :: rest') ∧
        declaredUrls (textOf e.source) = .ok urls ∧ declaredUrls (textOf e.target) = .ok (urls ++ [url]) := by
  obtain ⟨hh', hfirst⟩ := holds_inside hin hl (h.arguments ▸ hh) h.before
  obtain ⟨call, rest, hcalls, hcall, hopener⟩ := hh.call hl
  obtain ⟨call', rest', hcalls', hcall', -⟩ := hh'.call hin.lexed
  obtain rfl : call' = call := Option.some.inj (hcall'.symm.trans (hfirst.trans hcall))
  obtain ⟨urls, hurls, hurls'⟩ := h.urls
  have hp : Presents e.source urls := .inr ⟨a, w, b, z, hh, hurls⟩
  have hp' : Presents e.target (urls ++ [url]) := .inr ⟨a, w, _, z, hh', hurls'⟩
  exact ⟨hh', call', rest, rest', urls, hopener, hcalls, hcalls', hp.declaredUrls hl, hp'.declaredUrls hin.lexed⟩

/-- The declaration stands after the declarations of the list, or in a list of its own after the arguments
that have to precede it. The first package call is still the first, and nothing else in it has changed. -/
theorem addPackage_places (hclear : ClearList t) (hone : OneLine reference)
    (hok : (addPackage t reference).outcome = .ok t') : ∃ call rest rest' args args' urls,
      Anchor.packageCall.codeOccurrences t 0 t.length = .ok (call :: rest) ∧
      Anchor.packageCall.codeOccurrences t' 0 t'.length = .ok (call :: rest') ∧
      splitArguments t call.opener = .ok args ∧ splitArguments t' call.opener = .ok args' ∧
      (ListGains reference t args t' args' ∨ CallGains reference t args t' args') ∧
      declaredUrls t = .ok urls ∧ declaredUrls t' = .ok (urls ++ [reference.url]) := by
  obtain ⟨ps, hl, rfl⟩ : ∃ ps, Lexed ps ∧ textOf ps = t := by
    obtain ⟨args, hargs⟩ := arguments_of_addPackage hok
    rw [packageArguments?, bind_eq_ok] at hargs
    obtain ⟨os, hos, -⟩ := hargs
    exact exists_pieces hos
  obtain ⟨a, w, b, z, hh⟩ := holds_of_addPackage hl hok
  cases addPackage_placed hl hh (clear_of_holds hl hh hclear) hone hok with
  | @listed e f l r cs₁ cs₂ v v' hcs hnone hne hlast hsource hv hv' hin =>
    subst hsource
    have hb := hin.interior hh.pieces
    obtain ⟨hh', call, rest, rest', urls, hopener, hcalls, hcalls', hurls, hurls'⟩ :=
      (declaring_list hb hcs hnone hv hv' hone hin).reads hin hl hh
    obtain ⟨args, args', hargs, hargs', hgains⟩ :=
      callGains_of_inserts hh hl hcs hnone hne hb hlast hv hv' hone hin hh'
    rw [hin.places.target]
    exact ⟨call, rest, rest', args, args', urls, hcalls, hcalls', hopener ▸ hargs, hopener ▸ hargs',
      .inr hgains, hurls, hurls'⟩
  | @element e f l r y d rest cs cs₁ cs₂ hcs hbody hshow hes hurls hlast hsource hin =>
    subst hsource
    have hd := hin.interior (hshow.within hh.pieces)
    obtain ⟨hh', call, before, before', urls, hopener, hcalls, hcalls', hurls, hurls'⟩ :=
      (declaring_element hd hcs hbody hshow hes hurls (upToLast_append.mp hlast).2 hone hin).reads hin hl hh
    obtain ⟨args, args', hargs, hargs', hgains⟩ :=
      listGains_of_inserts hh hl hshow hes hd hlast hin (by simpa using hh')
    rw [← textOf_declarationElement, hin.places.target]
    exact ⟨call, before, before', args, args', urls, hcalls, hcalls', hopener ▸ hargs, hopener ▸ hargs',
      .inl hgains, hurls, hurls'⟩

def declaredPackages : Text :=
  "Package(name: \"P\", dependencies: [\n.package(path: \"a\"), // one\nb,\n])".toList

def declaredList : ArgumentList :=
  ⟨33, 66, [⟨none, ⟨35, 54⟩, ⟨35, 54⟩, some 54⟩, ⟨none, ⟨63, 64⟩, ⟨63, 64⟩, some 64⟩]⟩

lemma declaredPackages_list : ∃ args, splitArguments declaredPackages 7 = .ok args ∧
    dependencyArray? declaredPackages args = .ok (some declaredList) :=
  ⟨⟨7, 67, [⟨some nameLabel, ⟨8, 17⟩, ⟨14, 17⟩, some 17⟩, ⟨some dependenciesLabel, ⟨19, 67⟩, ⟨33, 67⟩, none⟩]⟩,
    by decide +kernel, by decide +kernel⟩

lemma upToLast_declaredList {n : Nat}
    (h : UpToLast (fun item => isPackageDeclaration declaredPackages item.value) n declaredList.items) : n = 1 := by
  have hflags : (declaredList.items.map fun item => isPackageDeclaration declaredPackages item.value) =
      [true, false].map id := by decide +kernel
  obtain ⟨hn, hlast, hnone⟩ := h.of_map hflags
  obtain rfl | rfl | rfl : n = 0 ∨ n = 1 ∨ n = 2 := by
    have hn : n ≤ 2 := hn
    omega
  · exact absurd (hnone true (by decide)) (by decide)
  · rfl
  · exact absurd (hlast false (by decide)) (by decide)

theorem addPackage_places_declared : ∃ t' args' list', (addPackage declaredPackages newPackage).outcome = .ok t' ∧
    splitArguments t' 7 = .ok args' ∧ dependencyArray? t' args' = .ok (some list') ∧
      list'.shown t' = [(none, ".package(path: \"a\")".toList), (none, renderDeclaration newPackage),
        (none, ['b'])] ∧ list'.endsInComma = true ∧
          declaredUrls t' = .ok [['a'], newPackage.url] := by
  have hclear : ClearList declaredPackages := by decide +kernel
  have hone : OneLine newPackage := ⟨by decide +kernel, by decide +kernel⟩
  have hadded : (addPackage declaredPackages newPackage).outcome.isOk = true := by decide +kernel
  have hopener : (Anchor.packageCall.codeOccurrences declaredPackages 0 declaredPackages.length).toOption.map
      (·.map (·.opener)) = some [7] := by decide +kernel
  have hbefore : (declaredUrls declaredPackages).toOption = some [['a']] := by decide +kernel
  obtain ⟨t', hok⟩ := isOk_iff.mp hadded
  obtain ⟨call, rest, rest', args, args', urls, hcalls, -, hargs, hargs', hgains, hurls, hurls'⟩ :=
    addPackage_places hclear hone hok
  rw [hcalls] at hopener
  obtain ⟨ho, -⟩ : call.opener = 7 ∧ rest = [] := by simpa [Except.toOption] using hopener
  rw [ho] at hargs hargs'
  rw [hurls] at hbefore
  obtain rfl : urls = [['a']] := Option.some.inj hbefore
  obtain ⟨old, hold, harray⟩ := declaredPackages_list
  obtain rfl := Except.ok.inj (hold.symm.trans hargs)
  rcases hgains with hlist | hcall
  · obtain ⟨list, list', hlist, hlist', ⟨n, hn, hshown⟩, hcomma⟩ := hlist.list
    obtain rfl : declaredList = list := Option.some.inj (Except.ok.inj (harray.symm.trans hlist))
    refine ⟨t', args', list', hok, hargs', hlist', ?_, hcomma, hurls'⟩
    rw [hshown, upToLast_declaredList hn]
    decide +kernel
  · simp [dependencyArray?, hcall.absent] at harray

end PackageInstaller.Manifest
