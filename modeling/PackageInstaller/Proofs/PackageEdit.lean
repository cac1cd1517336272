import PackageInstaller.Proofs.Layout
import PackageInstaller.Proofs.Packages
import PackageInstaller.Proofs.Rendered

/-! Declaring one more package: what comes of it, and how the package call reads afterwards. -/

namespace PackageInstaller.Manifest

variable {ps b z : List Piece} {p : List Piece} {reference plain : Reference}

/-- An argument with this label has to stand before the dependency list. -/
def precedesDependencies (label : Option Text) : Bool := label.any labelsBeforeDependencies.elem

/-- A declaration gets into the arguments `b` that open after `p`, as an element of their list or within a
list of its own. The text could as well declare `plain`. -/
inductive Placed (ps p b z : List Piece) (reference plain : Reference) : Text → Prop
  | listed {e : Splice} {f : Text → Text} {l r : List Piece} {cs₁ cs₂ : List (List Piece)} {w w' : Text} :
    contents b = some (cs₁ ++ cs₂) → labelled dependenciesLabel (cs₁ ++ cs₂) = none → cs₁ ≠ [] →
    UpToLast (fun c => precedesDependencies (labelOf c)) cs₁.length (cs₁ ++ cs₂) → e.source = ps →
    (∀ c ∈ w, Text.isBlank c = true) → (∀ c ∈ w', Text.isBlank c = true) →
    Inserts e f p l r z '(' ')' cs₁ cs₂ (listElement plain w w') →
    Placed ps p b z reference plain (f (textOf (listElement reference w w')))
  | element {e : Splice} {f : Text → Text} {l r y d rest : List Piece} {cs cs₁ cs₂ : List (List Piece)} :
    contents b = some cs → dependencyBody? cs = some d → Shows b y d rest →
    contents d = some (cs₁ ++ cs₂) → (∃ urls, urlsIn (cs₁ ++ cs₂) = some urls) →
    UpToLast (fun c => isDeclaration (valueOf c)) cs₁.length (cs₁ ++ cs₂) → e.source = ps →
    Inserts e f (p ++ .char '(' :: y) l r (rest ++ .char ')' :: z) '[' ']' cs₁ cs₂
      (declarationElement plain) →
    Placed ps p b z reference plain (f (renderDeclaration reference))

lemma exists_renderList (t : Text) (args : ArgumentList) (anchor : Argument) :
    ∃ w w', (∀ c ∈ w, Text.isBlank c = true) ∧ (∀ c ∈ w', Text.isBlank c = true) ∧
      ∀ reference, renderList t args anchor (renderDeclaration reference) =
        textOf (listElement reference w w') := by
  by_cases hm : Layout.isMultiline t args = true
  · have hi := lineIndent_blank t anchor.span.start
    have hu := indentUnit_blank (Layout.lineIndent t anchor.span.start)
    refine ⟨'\n' :: (Layout.lineIndent t anchor.span.start ++
      Layout.indentUnit (Layout.lineIndent t anchor.span.start)), '\n' :: Layout.lineIndent t anchor.span.start,
      newline_blank fun c hc => (List.mem_append.mp hc).elim (hi c) (hu c), newline_blank hi,
      fun reference => ?_⟩
    have h : ": [\n".toList = ": [".toList ++ ['\n'] := by decide
    rw [textOf_listElement, renderList, if_pos hm, h]
    simp only [List.append_assoc, List.cons_append, List.nil_append]
  · refine ⟨[], [], by simp, by simp, fun reference => ?_⟩
    rw [textOf_listElement, renderList, if_neg hm, List.append_nil, List.append_nil]

def OneLine (reference : Reference) : Prop := '\n' ∉ reference.url ∧ '\n' ∉ reference.version

lemma upToLast_anchor {args : ArgumentList} {index : Nat} (h : dependencyListAnchor? args = some index) :
    UpToLast (fun item => precedesDependencies item.label) (index + 1) args.items := by
  have hlast := upToLast_indices (fun item : Argument => precedesDependencies item.label) args.items
  rw [List.getLast?_map] at hlast
  rw [dependencyListAnchor?] at h
  simp only [precedesDependencies] at hlast ⊢
  simpa only [h, Option.elim_some] using hlast

lemma addList_placed {args : ArgumentList} {cs : List (List Piece)} {t : Text} (h : Lists ps p b args cs)
    (hl : Lexed ps) (hb : Balanced b) (hps : ps = p ++ .char '(' :: (b ++ .char ')' :: z))
    (hplain : OneLine plain) (hok : addList (textOf ps) args (renderDeclaration reference) = .ok t) :
    Placed ps p b z reference plain t := by
  have hfind := find?_reads h.reads dependenciesLabel
  rw [addList, ArgumentList.find?] at hok
  split_ifs at hok with hsome
  rw [Option.not_isSome_iff_eq_none] at hsome
  rw [hsome] at hfind
  split at hok
  · simp at hok
  · rename_i index hindex
    split at hok
    · simp at hok
    · rename_i anchor hanchor
      obtain ⟨hn, hlast, hnone⟩ := (upToLast_anchor hindex).of_map (map_reads h.reads fun hr => by rw [hr.label])
      obtain ⟨w, w', hw, hw', hrender⟩ := exists_renderList (textOf ps) args anchor
      obtain ⟨e, f, l, r, hs, hfun, hin⟩ := insertAfter_inserts h hl hps rfl hb
        (insertable_list hplain.1 hplain.2 hw hw') hn
      rw [hrender, hfun] at hok
      obtain rfl := Except.ok.inj hok
      refine .listed ?_ ?_ ?_ (upToLast_append.mpr ⟨hlast, hnone⟩) hs hw hw' hin
      · rw [List.take_append_drop]
        exact h.elements
      · rw [List.take_append_drop]
        generalize labelled dependenciesLabel cs = c at hfind
        cases hfind
        rfl
      · refine List.ne_nil_of_length_pos ?_
        rw [List.length_take]
        omega

lemma addToList_placed {y d rest : List Piece} {cs es : List (List Piece)} {list : ArgumentList}
    {placement : Placement} {t : Text} (h : Lists ps (p ++ .char '(' :: y) d list es) (hl : Lexed ps)
    (hps : ps = p ++ .char '(' :: (b ++ .char ')' :: z)) (hc : Clear b) (hcs : contents b = some cs)
    (hd : dependencyBody? cs = some d) (hs : Shows b y d rest) (hplain : OneLine plain)
    (hok : addToList (textOf ps) list reference = .ok (placement, t)) :
    Placed ps p b z reference plain t := by
  have hx := insertable_declaration hplain.1 hplain.2
  have hps' := hs.within hps
  have hexist := upToLast_existing hl h.reads
  simp only [addToList, bind, Except.bind] at hok
  split at hok
  · simp at hok
  · rename_i declared hdeclared
    cases declared with
    | true => simp [throw, throwThe, MonadExceptOf.throw] at hok
    | false =>
      have hurls : ∃ urls, urlsIn es = some urls := by
        rw [existing_items, mapError_eq_ok] at hdeclared
        exact urlsIn_of_declaresUrl hl h.reads hdeclared
      simp only [Bool.false_eq_true, if_false, pure, Except.pure] at hok
      generalize (existingDependencies (textOf ps) _).getLast? = last at hexist hok
      cases last with
      | some n =>
        obtain ⟨hn, hlast, hrest⟩ := hexist
        obtain ⟨e, f, l, r, he, hfun, hin⟩ := insertAfter_inserts h hl hps' rfl hs.interior hx hn
        simp only [hfun, Except.mapError] at hok
        obtain ⟨-, rfl⟩ := Prod.mk.inj (Except.ok.inj hok)
        refine .element hcs hd hs ?_ ?_ (upToLast_append.mpr ⟨hlast, hrest⟩) he hin
        · rw [List.take_append_drop]
          exact h.elements
        · rw [List.take_append_drop]
          exact hurls
      | none =>
        have hfirst : UpToLast (fun c => isDeclaration (valueOf c)) ([] : List (List Piece)).length ([] ++ es) :=
          hexist
        simp only at hok
        have hempty : list.items.isEmpty = true ↔ es = [] := by
          rw [List.isEmpty_iff, ← List.length_eq_zero_iff, h.reads.length_eq, List.length_eq_zero_iff]
        split_ifs at hok with hi
        · obtain rfl := hempty.mp hi
          obtain ⟨e, l, r, he, hin⟩ := fillEmpty_inserts h hl hps' hx true
          obtain ⟨-, rfl⟩ := Prod.mk.inj (Except.ok.inj hok)
          exact .element hcs hd hs (by simpa using h.elements) (by simpa using hurls) hfirst he hin
        · have hne : es ≠ [] := mt hempty.mpr hi
          obtain ⟨e, f, l, r, he, hfun, hin⟩ := prepend_inserts h hl hps' hs.interior hx hne
            (hc hcs hd h.elements hne hexist.2.2)
          simp only [hfun, Except.mapError] at hok
          obtain ⟨-, rfl⟩ := Prod.mk.inj (Except.ok.inj hok)
          exact .element hcs hd hs (by simpa using h.elements) (by simpa using hurls) hfirst he hin

theorem addPackage_outcome (t : Text) (reference : Reference) :
    (addPackage t reference).outcome = (placePackage t reference).map (·.2) := by
  rw [addPackage, Attempt.bind_outcome, Attempt.ofExcept_outcome]
  cases placePackage t reference <;> rfl

theorem addPackage_placed {a : List Piece} {w t : Text} (hl : Lexed ps) (hh : Holds ps a w b z)
    (hc : Clear b) (hplain : OneLine plain) (hok : (addPackage (textOf ps) reference).outcome = .ok t) :
    Placed ps (a ++ chars ('P' :: w)) b z reference plain t := by
  rw [addPackage_outcome, map_eq_ok] at hok
  obtain ⟨⟨placement, t⟩, hok, rfl⟩ := hok
  obtain ⟨r, hr, hp⟩ := packageArguments?_holds hl hh
  rw [placePackage, hp] at hok
  rcases hr with ⟨-, pos, rfl⟩ | ⟨args, cs, hargs, rfl⟩
  · simp [Except.map, Except.mapError, bind, Except.bind] at hok
  · simp only [Except.map, Except.mapError, bind, Except.bind] at hok
    rcases dependencyArray?_listed hargs hl rfl hh.balanced hh.pieces with
      ⟨-, hd⟩ | ⟨y, d, rest, hd, hshow, r, hr, harr⟩
    · simp only [hd, pure, Except.pure] at hok
      split at hok
      · simp at hok
      · rename_i edited hedited
        obtain ⟨-, rfl⟩ := Prod.mk.inj (Except.ok.inj hok)
        exact addList_placed hargs hl hh.balanced hh.pieces hplain hedited
    · rcases hr with ⟨-, pos, rfl⟩ | ⟨list, es, hlist, rfl⟩
      · simp [harr, Except.map] at hok
      · simp only [harr, Except.map] at hok
        exact addToList_placed hlist hl hh.pieces hc hargs.elements hd hshow hplain hok

/-- `url` is declared among the arguments that open after `p`, with `q` before the place and `v` after it,
and the list is clear from then on. -/
structure Declaring (e : Splice) (p b : List Piece) (url : Text) (q v : List Piece) : Prop where
  before : e.before = p ++ .char '(' :: q
  arguments : b = q ++ e.old ++ v
  open_brackets : ∃ s, walk [] q = some s ∧ ')' ∉ s
  urls : ∃ urls, packageUrls b = some urls ∧ packageUrls (q ++ e.new ++ v) = some (urls ++ [url])
  clear : Clear (q ++ e.new ++ v)

variable {e : Splice} {f : Text → Text} {a l r y d x : List Piece} {o k : Char}
  {cs cs₁ cs₂ : List (List Piece)}

lemma clear_of_declaration (hcs : contents b = some cs) (hd : dependencyBody? cs = some d)
    (hes : contents d = some (cs₁ ++ x :: cs₂)) (hx : isDeclaration (valueOf x) = true) : Clear b := by
  intro cs' d' es hcs' hd' hes' _ hn
  obtain rfl := Option.some.inj (hcs.symm.trans hcs')
  obtain rfl := Option.some.inj (hd.symm.trans hd')
  obtain rfl := Option.some.inj (hes.symm.trans hes')
  have := hn x (by simp)
  rw [hx] at this
  simp at this

lemma urlsIn_insert {url : Text} (hn : ∀ c ∈ cs₂, isDeclaration (valueOf c) = false)
    (hx : isDeclaration (valueOf x) = true) (hu : urlOf (valueOf x) = some (some url)) :
    urlsIn (cs₁ ++ x :: cs₂) = (urlsIn (cs₁ ++ cs₂)).map (· ++ [url]) := by
  have hone : urlsIn (x :: cs₂) = some [url] := by
    rw [urlsIn, if_pos hx, hu, urlsIn_none hn]
    rfl
  rw [urlsIn_append, urlsIn_append, hone, urlsIn_none hn]
  cases urlsIn cs₁ <;> simp

lemma declaring_list {w w' : Text} (hb : b = l ++ e.old ++ r) (hcs : contents b = some (cs₁ ++ cs₂))
    (hn : labelled dependenciesLabel (cs₁ ++ cs₂) = none) (hw : ∀ c ∈ w, Text.isBlank c = true)
    (hw' : ∀ c ∈ w', Text.isBlank c = true) (hone : OneLine reference)
    (hin : Inserts e f p l r z '(' ')' cs₁ cs₂ (listElement reference w w')) :
    Declaring e p b reference.url l r := by
  obtain ⟨hlabel, d, hd, hdc, -⟩ := listElement_reads hone.1 hone.2 hw hw'
  obtain ⟨hv, hdecl, hurl⟩ := declarationElement_reads hone.1
  rw [← hv] at hdecl hurl
  have hbody : dependencyBody? (cs₁ ++ listElement reference w w' :: cs₂) = some d := by
    rw [labelled, List.find?_append, Option.or_eq_none_iff] at hn
    rw [dependencyBody?, labelled, List.find?_append, hn.1, Option.none_or,
      List.find?_cons_of_pos (by simpa using hlabel), Option.bind_some, hd]
  have hnone : dependencyBody? (cs₁ ++ cs₂) = none := by rw [dependencyBody?, hn, Option.bind_none]
  refine ⟨hin.before, hb, ⟨[], hin.left, by simp⟩, ?_, ?_⟩
  · rw [packageUrls, packageUrls, hin.contents, hcs]
    simp only [Option.bind_some, hbody, hnone, hdc]
    refine ⟨[], rfl, ?_⟩
    have := @urlsIn_insert _ [] [] _ (by simp) hdecl hurl
    simpa [urlsIn] using this
  · exact @clear_of_declaration _ _ _ _ [] [] hin.contents hbody hdc hdecl

lemma declaring_element {rest : List Piece} (hd : d = l ++ e.old ++ r) (hcs : contents b = some cs)
    (hbody : dependencyBody? cs = some d) (hs : Shows b y d rest) (hes : contents d = some (cs₁ ++ cs₂))
    (hurls : ∃ urls, urlsIn (cs₁ ++ cs₂) = some urls)
    (hn : ∀ c ∈ cs₂, isDeclaration (valueOf c) = false) (hone : OneLine reference)
    (hin : Inserts e f (p ++ .char '(' :: y) l r z '[' ']' cs₁ cs₂ (declarationElement reference)) :
    Declaring e p b reference.url (y ++ .char '[' :: l) (r ++ .char ']' :: rest) := by
  obtain ⟨hv, hdecl, hurl⟩ := declarationElement_reads hone.1
  rw [← hv] at hdecl hurl
  obtain ⟨cs', hcs', hbody'⟩ := hs.named ((hin.left.append hin.even.new).append hin.right)
  have hpieces : y ++ .char '[' :: ((l ++ e.new ++ r) ++ .char ']' :: rest) =
      y ++ .char '[' :: l ++ e.new ++ (r ++ .char ']' :: rest) := by simp
  rw [hpieces] at hcs'
  refine ⟨by rw [hin.before]; simp, by rw [hs.pieces, hd]; simp, ⟨[']'], ?_, by simp⟩, ?_, ?_⟩
  · rw [walk_append, hs.before.walk, Option.bind_some, walk_opener (k := ']') rfl]
    exact hin.left.walk _
  · rw [packageUrls, packageUrls, hcs, hcs']
    simp only [Option.bind_some, hbody, hbody', hin.contents, hes]
    obtain ⟨urls, hurls⟩ := hurls
    refine ⟨urls, hurls, ?_⟩
    rw [urlsIn_insert hn hdecl hurl, hurls, Option.map_some]
  · exact clear_of_declaration hcs' hbody' hin.contents hdecl

lemma Placed.declaring {t : Text} (h : Placed ps p b z reference reference t)
    (hps : ps = p ++ .char '(' :: (b ++ .char ')' :: z)) (hp : Apart p '(') (hone : OneLine reference) :
    ∃ e f a l r y o k cs₁ cs₂ x q v, e.source = ps ∧ t = textOf e.target ∧
      Inserts e f a l r y o k cs₁ cs₂ x ∧ closerOf? o = some k ∧ Apart a o ∧
        (contents (l ++ e.old ++ r)).isSome ∧ Declaring e p b reference.url q v := by
  cases h with
  | @listed e f l r cs₁ cs₂ w w' hcs hn _ _ hs hw hw' hin =>
    have hb := hin.interior (hs.trans hps)
    exact ⟨e, f, _, _, _, _, _, _, _, _, _, _, _, hs, hin.places.target, hin, rfl, hp,
      by rw [← hb, hcs]; rfl, declaring_list hb hcs hn hw hw' hone hin⟩
  | @element e f l r y d rest cs cs₁ cs₂ hcs hbody hshow hes hurls hlast hs hin =>
    have hd := hin.interior (hs.trans (hshow.within hps))
    refine ⟨e, f, _, _, _, _, _, _, _, _, _, _, _, hs, ?_, hin, rfl, fun ho => absurd ho (by decide),
      by rw [← hd, hes]; rfl, declaring_element hd hcs hbody hshow hes hurls (upToLast_append.mp hlast).2
        hone hin⟩
    rw [← textOf_declarationElement]
    exact hin.places.target

/-- The declaration encloses the parenthesis at this offset. -/
def Encloses (s : Text × Call) (opener : Nat) : Prop :=
  s.2.span.start ≤ opener ∧ opener < s.2.span.stop

lemma Holds.apart {a : List Piece} {w : Text} (h : Holds ps a w b z) : Apart (a ++ chars ('P' :: w)) '(' := by
  intro _
  obtain ⟨v, hw, hv⟩ := h.word
  exact ⟨a, w, v, rfl, hw, hv⟩

lemma arguments_of_addPackage {t t' : Text} (hok : (addPackage t reference).outcome = .ok t') :
    ∃ args, packageArguments? t = .ok (some args) := by
  rw [addPackage_outcome, map_eq_ok] at hok
  obtain ⟨placed, hok, -⟩ := hok
  rw [placePackage] at hok
  cases hp : packageArguments? t with
  | error e =>
    rw [hp] at hok
    simp [Except.mapError, bind, Except.bind] at hok
  | ok args =>
    cases args with
    | none =>
      rw [hp] at hok
      simp [Except.mapError, bind, Except.bind, throw, throwThe, MonadExceptOf.throw] at hok
    | some args => exact ⟨args, rfl⟩

lemma holds_of_addPackage {t : Text} (hl : Lexed ps)
    (hok : (addPackage (textOf ps) reference).outcome = .ok t) : ∃ a w b z, Holds ps a w b z := by
  obtain ⟨args, hp⟩ := arguments_of_addPackage hok
  exact exists_holds hl hp

/-- A package that was added is the last one declared, and the targets are found as before. -/
theorem addPackage_ok {found : List (Text × Call)} {a : List Piece} {w t : Text} (h : Shown ps found)
    (hh : Holds ps a w b z) (hc : Receptive ps) (hone : OneLine reference)
    (hok : (addPackage (textOf ps) reference).outcome = .ok t) :
    ∃ ps' found' urls, t = textOf ps' ∧ Shown ps' found' ∧ Presents ps urls ∧
      Presents ps' (urls ++ [reference.url]) ∧ Receptive ps' ∧
        List.Forall₂ (fun s s' => Alike s s' ∧ (¬Encloses s (textOf (a ++ chars ('P' :: w))).length →
          SameSource (textOf ps) t s s')) found found' := by
  obtain ⟨e, f, a₁, l, r, y, o, k, cs₁, cs₂, x, q, v, rfl, rfl, hin, ho, hap, held, hdec⟩ :=
    (addPackage_placed h.lexed hh (hc a w b z hh) hone hok).declaring hh.pieces hh.apart hone
  obtain ⟨found', hshown, hfr⟩ := shown_target hin ho hap h
  obtain ⟨s, hs, hns⟩ := hdec.open_brackets
  obtain ⟨hh', -⟩ := holds_inside hin h.lexed (hdec.arguments ▸ hh) hdec.before
  obtain ⟨urls, hu, hu'⟩ := hdec.urls
  refine ⟨e.target, found', urls, rfl, hshown, .inr ⟨a, w, b, z, hh, hu⟩, .inr ⟨a, w, _, z, hh', hu'⟩,
    hh'.receptive hdec.clear, ?_⟩
  refine (List.forall₂_and_left _ _ |>.mpr ⟨fun s hs => hs, hfr⟩).imp fun s s' hss' => ?_
  obtain ⟨hmem, hname, hf⟩ := hss'
  obtain ⟨b₁, w₁, z₁, hst⟩ := h.stands hmem
  refine ⟨⟨hname, hf.capture, ?_⟩, fun hn => hf.sameSource (hf.outside hdec.before hs hns hn)⟩
  exact elementsOf_isSome hin ho held (hst.body h.lexed) hst.balanced (hf.deep hin ho hap)

/-- An attempt is refused because the package is declared already. -/
def Refused {α : Type} (outcome : Except EditError α) : Prop := ∃ e, outcome = .error e ∧ e.isDuplicate = true

lemma not_refused_scan {α : Type} (r : Scan α) : ¬Refused (r.mapError EditError.scan) := by
  rintro ⟨e, he, hd⟩
  cases r with
  | ok => simp [Except.mapError] at he
  | error cause =>
    obtain rfl := Except.error.inj he
    simp [EditError.isDuplicate] at hd

lemma refused_bind {α β : Type} {r : Scan α} {f : α → Except EditError β} :
    Refused (r.mapError EditError.scan >>= f) ↔ ∃ a, r = .ok a ∧ Refused (f a) := by
  cases r with
  | ok a => simp [Except.mapError, bind, Except.bind]
  | error cause => simp [Refused, EditError.isDuplicate, Except.mapError, bind, Except.bind]

lemma refused_map {α β : Type} (r : Except EditError α) (g : α → β) : Refused (r.map g) ↔ Refused r := by
  cases r <;> simp [Refused, Except.map]

lemma not_refused_addList (t : Text) (args : ArgumentList) (declaration : Text) :
    ¬Refused (addList t args declaration) := by
  rw [addList]
  split_ifs
  · simp [Refused, EditError.isDuplicate]
  · split
    · simp [Refused, EditError.isDuplicate]
    · split
      · simp [Refused, EditError.isDuplicate]
      · exact not_refused_scan _

lemma refused_addToList {t : Text} {list : ArgumentList} : Refused (addToList t list reference) ↔
    declaresUrl t (Repository.canonicalUrl reference.url)
      ((existingDependencies t list).filterMap (list.items[·]?)) = .ok true := by
  rw [addToList, refused_bind]
  constructor
  · rintro ⟨declared, hdeclared, h⟩
    cases declared with
    | true => exact hdeclared
    | false =>
      simp only [Bool.false_eq_true, if_false] at h
      split at h
      · exact absurd ((refused_map _ _).mp h) (not_refused_scan _)
      · split_ifs at h
        · simp [Refused, pure, Except.pure] at h
        · exact absurd ((refused_map _ _).mp h) (not_refused_scan _)
  · intro h
    exact ⟨true, h, _, rfl, rfl⟩

lemma refused_addPackage_iff {t : Text} : Refused (addPackage t reference).outcome ↔
    ∃ args list, packageArguments? t = .ok (some args) ∧ dependencyArray? t args = .ok (some list) ∧
      declaresUrl t (Repository.canonicalUrl reference.url)
        ((existingDependencies t list).filterMap (list.items[·]?)) = .ok true := by
  rw [addPackage_outcome, refused_map, placePackage, refused_bind]
  constructor
  · rintro ⟨args, hargs, h⟩
    cases args with
    | none => simp [Refused, EditError.isDuplicate, throw, throwThe, MonadExceptOf.throw] at h
    | some args =>
      obtain ⟨list, hlist, h⟩ := refused_bind.mp h
      cases list with
      | none => exact absurd ((refused_map _ _).mp h) (not_refused_addList _ _ _)
      | some list => exact ⟨args, list, hargs, hlist, refused_addToList.mp h⟩
  · rintro ⟨args, list, hargs, hlist, h⟩
    exact ⟨some args, hargs, refused_bind.mpr ⟨some list, hlist, refused_addToList.mpr h⟩⟩

lemma declaresUrl_of_urls {t : Text} {items : List Argument} {found : List (Option Text)} (wanted : Text)
    (h : (items.mapM fun item => declarationUrl? t item.value) = .ok found) : declaresUrl t wanted items =
      .ok ((found.filterMap id).any fun url => Repository.canonicalUrl url = wanted) := by
  induction items generalizing found with
  | nil =>
    obtain rfl := Except.ok.inj h
    rfl
  | cons item items ih =>
    rw [List.mapM_cons] at h
    obtain ⟨url, hurl, h⟩ := bind_eq_ok.mp h
    obtain ⟨rest, hrest, h⟩ := bind_eq_ok.mp h
    obtain rfl := Except.ok.inj h
    have ih := ih hrest
    rw [declaresUrl, hurl]
    cases url with
    | none => exact ih
    | some url =>
      by_cases hc : Repository.canonicalUrl url = wanted
      · simp [bind, Except.bind, hc, pure, Except.pure]
      · simpa [bind, Except.bind, hc] using ih

/-- A package is refused exactly if one with its canonical URL is declared. -/
theorem refused_iff_declared {t : Text} {urls : List Text} (h : declaredUrls t = .ok urls) :
    Refused (addPackage t reference).outcome ↔
      Repository.canonicalUrl reference.url ∈ urls.map Repository.canonicalUrl := by
  rw [refused_addPackage_iff]
  rw [declaredUrls] at h
  obtain ⟨args, hargs, h⟩ := bind_eq_ok.mp h
  cases args with
  | none =>
    obtain rfl := Except.ok.inj h
    simp [hargs]
  | some args =>
    obtain ⟨list, hlist, h⟩ := bind_eq_ok.mp h
    cases list with
    | none =>
      obtain rfl := Except.ok.inj h
      simp [hargs, hlist]
    | some list =>
      obtain ⟨found, hfound, h⟩ := bind_eq_ok.mp h
      obtain rfl := Except.ok.inj h
      have hdeclares := declaresUrl_of_urls (Repository.canonicalUrl reference.url) hfound
      generalize found.filterMap id = urls at hdeclares
      simp [hargs, hlist, hdeclares]

theorem addPackage_refused {urls : List Text} (hl : Lexed ps) (hp : Presents ps urls) :
    Refused (addPackage (textOf ps) reference).outcome ↔
      Repository.canonicalUrl reference.url ∈ urls.map Repository.canonicalUrl :=
  refused_iff_declared (hp.declaredUrls hl)

end PackageInstaller.Manifest
