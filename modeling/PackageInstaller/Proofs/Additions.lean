import PackageInstaller.Proofs.Faults
import PackageInstaller.Proofs.Growth

/-! What an edit puts into the text: commas, and elements with nothing but blanks and commas around them. That
is so whatever the text and the element, also where the outcome cannot be read any more. -/

namespace PackageInstaller.Manifest

open Layout

/-- A comma, or `x` between blanks and commas. -/
def Carries (x p : Text) : Prop :=
  p = [','] ∨ ∃ w w', p = w ++ x ++ w' ∧ ∀ c ∈ w ++ w', Text.isBlank c = true ∨ c = ','

/-- The list stands where its brackets do, with its elements between them. -/
structure IsArray (t : Text) (list : ArgumentList) : Prop where
  brackets : ∃ a d z, t = a ++ '[' :: (d ++ ']' :: z) ∧ list.opener = a.length ∧
    list.closer = a.length + d.length + 1
  within : ∀ item ∈ list.items, item.span.stop ≤ list.closer

variable {P : Text → Prop} {t t' x p w w' : Text} {args list : ArgumentList} {item : Argument}

lemma carries_between (hw : ∀ c ∈ w, Text.isBlank c = true ∨ c = ',') (hw' : ∀ c ∈ w', Text.isBlank c = true ∨ c = ',') :
    Carries x (w ++ x ++ w') :=
  .inr ⟨w, w', rfl, List.forall_mem_append.mpr ⟨hw, hw'⟩⟩

lemma carries_after (hw : ∀ c ∈ w, Text.isBlank c = true ∨ c = ',') : Carries x (w ++ x) :=
  .inr ⟨w, [], (List.append_nil _).symm, by rwa [List.append_nil]⟩

lemma extends_insertAt (hp : P p) (t : Text) (pos : Nat) : Text.Extends P t (insertAt t pos p) := by
  have h := Text.Receives.between (p := p) (t.take pos) (t.drop pos)
  rw [List.take_append_drop] at h
  exact .single ⟨p, hp, h⟩

lemma le_pastLineComment {pos limit : Nat} (h : pos ≤ limit) (t : Text) : pos ≤ pastLineComment t pos limit := by
  rw [pastLineComment]
  split_ifs
  · cases hi : Text.indexFrom? t '\n' (pos + ((t.slice pos limit).takeWhile isIndent).length) limit with
    | none => exact h
    | some n =>
      simp only [Text.indexFrom?] at hi
      split_ifs at hi
      obtain rfl := Option.some.inj hi
      rw [Option.getD_some]
      omega
  · exact Nat.le_refl pos

lemma slice_append_drop {i j : Nat} (h : i ≤ j) (t : Text) : t.slice i j ++ t.drop j = t.drop i := by
  have hdrop : t.drop j = (t.drop i).drop (j - i) := by
    rw [List.drop_drop]
    congr 1
    omega
  rw [Text.slice, hdrop, List.take_append_drop]

lemma lineIndent_filler (t : Text) (pos : Nat) : ∀ c ∈ '\n' :: lineIndent t pos, Text.isBlank c = true ∨ c = ',' :=
  fun c hc => .inl (newline_blank (lineIndent_blank t pos) c hc)

lemma insertAfterItem_extends (h : item.span.stop ≤ args.closer) (t x : Text) :
    Text.Extends (Carries x) t (insertAfterItem t args item x) := by
  have hindent := lineIndent_filler t item.span.start
  rw [insertAfterItem]
  simp only
  split_ifs
  · cases item.comma with
    | some comma => exact extends_insertAt (carries_between hindent (by simp)) _ _
    | none =>
      -- the comma is put in first, and the line then after what stands between
      have hle := le_pastLineComment h t
      generalize pastLineComment t item.span.stop args.closer = pos at hle
      have hcomma := extends_insertAt (P := Carries x) (.inl rfl) t item.span.stop
      rw [insertAt, ← slice_append_drop hle, ← List.append_assoc] at hcomma
      have hnext := Text.Receives.between (p := '\n' :: lineIndent t item.span.start ++ x)
        (t.take item.span.stop ++ [','] ++ t.slice item.span.stop pos) (t.drop pos)
      exact hcomma.tail ⟨_, carries_after hindent, hnext⟩
  · cases item.comma with
    | some comma => exact extends_insertAt (@carries_between x [' '] [','] (by decide) (by decide)) _ _
    | none => exact extends_insertAt (@carries_after x [',', ' '] (by decide)) _ _

lemma insertAfter_extends {n : Nat} (h : ∀ item ∈ args.items, item.span.stop ≤ args.closer)
    (hok : insertAfter t args n x = .ok t') : Text.Extends (Carries x) t t' := by
  rw [insertAfter] at hok
  split at hok
  · rename_i item hitem
    obtain rfl := Except.ok.inj hok
    exact insertAfterItem_extends (h item (List.mem_of_getElem? hitem)) t x
  · simp at hok

lemma prepend_extends (hok : prepend t args x = .ok t') : Text.Extends (Carries x) t t' := by
  rw [prepend] at hok
  split at hok
  · rename_i item hitem
    obtain rfl := Except.ok.inj hok
    have hindent : ∀ c ∈ lineIndent t item.span.start, Text.isBlank c = true ∨ c = ',' :=
      fun c hc => .inl (lineIndent_blank t _ c hc)
    rw [prependToItem]
    split_ifs
    · exact extends_insertAt (carries_between hindent (by decide)) _ _
    · exact extends_insertAt (@carries_between x [] [',', ' '] (by simp) (by decide)) _ _
  · simp at hok

lemma IsArray.sides (h : IsArray t list) : ∃ a d z, t = a ++ '[' :: (d ++ ']' :: z) ∧
    t.slice (list.opener + 1) list.closer = d ∧ t.take (list.opener + 1) = a ++ ['['] ∧
      t.drop list.closer = ']' :: z := by
  obtain ⟨a, d, z, rfl, hopener, hcloser⟩ := h.brackets
  have hopen : list.opener + 1 = (a ++ ['[']).length := by simp [hopener]
  have hclose : list.closer = (a ++ ['[']).length + d.length := by
    rw [hcloser]
    simp
    omega
  have htext : a ++ '[' :: (d ++ ']' :: z) = (a ++ ['[']) ++ (d ++ ']' :: z) := by simp
  refine ⟨a, d, z, rfl, ?_, ?_, ?_⟩
  · rw [htext, hopen, hclose, slice_length]
  · rw [htext, hopen, List.take_left]
  · rw [htext, hclose, ← List.append_assoc, ← List.length_append, List.drop_left]

lemma fillEmpty_extends (h : IsArray t list) (x : Text) (multi : Bool) :
    Text.Extends (Carries x) t (fillEmpty t list x multi) := by
  obtain ⟨a, d, z, ht, hinside, hleft, hright⟩ := h.sides
  have hfilled : ∀ p, Carries x p → d.all Text.isBlank = true →
      Text.Extends (Carries x) t (a ++ ['['] ++ p ++ ']' :: z) := by
    intro p hp hd
    have hr := Text.Receives.filled (p := p) a z (fun c hc => List.all_eq_true.mp hd c hc)
    rw [← ht] at hr
    exact .single ⟨p, hp, by simpa using hr⟩
  simp only [fillEmpty, hinside, hleft, hright]
  generalize hbase : lineIndent _ list.opener = base
  have hb : ∀ c ∈ base, Text.isBlank c = true := hbase ▸ lineIndent_blank _ _
  have hline : ∀ c ∈ '\n' :: base ++ indentUnit base, Text.isBlank c = true ∨ c = ',' := by
    intro c hc
    rcases List.mem_append.mp hc with hc | hc
    · exact .inl (newline_blank hb c hc)
    · exact .inl (indentUnit_blank base c hc)
  split_ifs with hm ht ht
  · exact extends_insertAt (carries_after hline) _ _
  · have hbelow : ∀ c ∈ '\n' :: base, Text.isBlank c = true ∨ c = ',' := fun c hc => .inl (newline_blank hb c hc)
    simpa using hfilled _ (carries_between hline hbelow) (by simpa using ht)
  · exact extends_insertAt (@carries_after x [] (by simp)) _ _
  · exact hfilled _ (@carries_after x [] (by simp)) (by simpa using ht)

variable {ps a b d z : List Piece} {items : List Argument} {reference : Reference} {target identifier : Text}
  {names : List Text}

lemma within_of_argumentsFrom {pos : Nat} (h : argumentsFrom pos (segments b) = .ok items) :
    ∀ item ∈ items, item.span.stop ≤ pos + (textOf b).length := by
  intro item hi
  obtain ⟨before, after, rfl⟩ := List.append_of_mem hi
  obtain ⟨u, s, v, hseg, -, -, rfl⟩ := argumentsFrom_split h
  obtain ⟨r, hr, -⟩ := exists_trail s
  have hlen := congrArg (fun ps => (textOf ps).length) (joined_segments b)
  rw [hseg, joined_mid, hr] at hlen
  simp only [textOf_append, List.length_append] at hlen
  simp only [argumentAt]
  omega

lemma isArray_textOf {cs : List (List Piece)} (hps : ps = a ++ .char '[' :: (d ++ .char ']' :: z))
    (h : Lists ps a d list cs) : IsArray (textOf ps) list := by
  refine ⟨⟨textOf a, textOf d, textOf z, by simp [hps, Piece.text], h.opener, h.closer⟩, fun item hi => ?_⟩
  have := within_of_argumentsFrom h.items item hi
  rw [h.closer]
  omega

/-- A declaration of the package, or a list of it alone, comes in with the piece. -/
def CarriesPackage (reference : Reference) (p : Text) : Prop :=
  Carries (renderDeclaration reference) p ∨ ∃ w w', (∀ c ∈ w ++ w', Text.isBlank c = true) ∧
    Carries (dependenciesLabel ++ ": [".toList ++ w ++ renderDeclaration reference ++ w' ++ [']']) p

lemma addList_ok {declaration : Text} (hok : addList t args declaration = .ok t') :
    ∃ n anchor, insertAfter t args n (renderList t args anchor declaration) = .ok t' := by
  rw [addList] at hok
  split_ifs at hok
  split at hok
  · simp at hok
  · split at hok
    · simp at hok
    · exact ⟨_, _, mapError_eq_ok.mp hok⟩

lemma addList_extends (h : ∀ item ∈ args.items, item.span.stop ≤ args.closer)
    (hok : addList t args (renderDeclaration reference) = .ok t') :
    Text.Extends (CarriesPackage reference) t t' := by
  obtain ⟨index, anchor, hok⟩ := addList_ok hok
  obtain ⟨w, w', hw, hw', hlist⟩ := exists_renderList t args anchor
  rw [hlist reference, textOf_listElement] at hok
  have hblank := List.forall_mem_append.mpr ⟨hw, hw'⟩
  exact (insertAfter_extends h hok).mono fun p hp => .inr ⟨w, w', hblank, hp⟩

lemma addToList_ok {placement : Placement} (hok : addToList t list reference = .ok (placement, t')) :
    (∃ n, insertAfter t list n (renderDeclaration reference) = .ok t') ∨
      (list.items = [] ∧ fillEmpty t list (renderDeclaration reference) true = t') ∨
        prepend t list (renderDeclaration reference) = .ok t' := by
  rw [addToList] at hok
  obtain ⟨declared, -, hok⟩ := bind_eq_ok.mp hok
  cases declared with
  | true =>
    obtain ⟨u, hthrow, -⟩ := bind_eq_ok.mp hok
    simp [throw, throwThe, MonadExceptOf.throw] at hthrow
  | false =>
    simp only [Bool.false_eq_true, if_false] at hok
    split at hok
    · obtain ⟨edited, hadd, hok⟩ := bind_eq_ok.mp hok
      obtain ⟨-, rfl⟩ := Prod.mk.inj (Except.ok.inj hok)
      exact .inl ⟨_, mapError_eq_ok.mp hadd⟩
    · split_ifs at hok with hnone
      · obtain ⟨-, hfilled⟩ := Prod.mk.inj (Except.ok.inj hok)
        exact .inr (.inl ⟨List.isEmpty_iff.mp hnone, hfilled⟩)
      · obtain ⟨edited, hadd, hok⟩ := bind_eq_ok.mp hok
        obtain ⟨-, rfl⟩ := Prod.mk.inj (Except.ok.inj hok)
        exact .inr (.inr (mapError_eq_ok.mp hadd))

lemma addToList_extends {placement : Placement} (h : IsArray t list)
    (hok : addToList t list reference = .ok (placement, t')) :
    Text.Extends (Carries (renderDeclaration reference)) t t' := by
  rcases addToList_ok hok with ⟨n, hadd⟩ | ⟨-, rfl⟩ | hadd
  · exact insertAfter_extends h.within hadd
  · exact fillEmpty_extends h _ _
  · exact prepend_extends hadd

lemma placePackage_ok {placement : Placement} (hok : placePackage t reference = .ok (placement, t')) :
    ∃ args, packageArguments? t = .ok (some args) ∧
      ((dependencyArray? t args = .ok none ∧ addList t args (renderDeclaration reference) = .ok t') ∨
        ∃ list, dependencyArray? t args = .ok (some list) ∧ addToList t list reference = .ok (placement, t')) := by
  rw [placePackage] at hok
  obtain ⟨args, hargs, hok⟩ := bind_eq_ok.mp hok
  rw [mapError_eq_ok] at hargs
  cases args with
  | none => simp [throw, throwThe, MonadExceptOf.throw] at hok
  | some args =>
    obtain ⟨list, hlist, hok⟩ := bind_eq_ok.mp hok
    rw [mapError_eq_ok] at hlist
    cases list with
    | none =>
      obtain ⟨edited, hadd, hok⟩ := bind_eq_ok.mp hok
      obtain ⟨-, rfl⟩ := Prod.mk.inj (Except.ok.inj hok)
      exact ⟨args, hargs, .inl ⟨hlist, hadd⟩⟩
    | some list => exact ⟨args, hargs, .inr ⟨list, hlist, hok⟩⟩

/-- The arguments of the package and their dependency list end where their brackets close. -/
lemma packageArguments?_isArray (hp : packageArguments? t = .ok (some args)) :
    (∀ item ∈ args.items, item.span.stop ≤ args.closer) ∧
      ∀ list, dependencyArray? t args = .ok (some list) → IsArray t list := by
  rcases packageArguments?_cases t with hn | ⟨cause, he, -⟩ | ⟨ps, a, w, b, z, rfl, hl, hh⟩
  · simp [hn] at hp
  · simp [he] at hp
  · obtain ⟨r, hr, hp'⟩ := packageArguments?_holds hl hh
    rw [hp'] at hp
    rcases hr with ⟨-, pos, rfl⟩ | ⟨args, cs, hargs, rfl⟩
    · simp [Except.map] at hp
    · obtain rfl := Option.some.inj (Except.ok.inj hp)
      refine ⟨fun item hi => ?_, fun list hd => ?_⟩
      · have hle := within_of_argumentsFrom hargs.items item hi
        rw [hargs.closer]
        omega
      · rcases dependencyArray?_listed hargs hl rfl hh.balanced hh.pieces with
          ⟨-, hn⟩ | ⟨y, d, rest, -, hshow, r, hr, hsome⟩
        · simp [hn] at hd
        · rw [hsome] at hd
          rcases hr with ⟨-, pos, rfl⟩ | ⟨list, es, hlist, rfl⟩
          · simp [Except.map] at hd
          · obtain rfl := Option.some.inj (Except.ok.inj hd)
            exact isArray_textOf (hshow.within hh.pieces) hlist

theorem addPackage_extends (hok : (addPackage t reference).outcome = .ok t') :
    Text.Extends (CarriesPackage reference) t t' := by
  rw [addPackage_outcome, map_eq_ok] at hok
  obtain ⟨⟨placement, t'⟩, hok, rfl⟩ := hok
  obtain ⟨args, hp, ⟨-, hadd⟩ | ⟨list, hd, hadd⟩⟩ := placePackage_ok hok
  · exact addList_extends (packageArguments?_isArray hp).1 hadd
  · exact (addToList_extends ((packageArguments?_isArray hp).2 list hd) hadd).mono fun p => .inl

lemma appendElement_ok (hok : appendElement t list x = .ok t') :
    (list.items = [] ∧ fillEmpty t list x false = t') ∨ ∃ n, insertAfter t list n x = .ok t' := by
  rw [appendElement] at hok
  split_ifs at hok with hnone
  · exact .inl ⟨List.isEmpty_iff.mp hnone, Except.ok.inj hok⟩
  · exact .inr ⟨_, hok⟩

lemma appendElement_extends (h : IsArray t list) (hok : appendElement t list x = .ok t') :
    Text.Extends (Carries x) t t' := by
  rcases appendElement_ok hok with ⟨-, rfl⟩ | ⟨n, hadd⟩
  · exact fillEmpty_extends h x false
  · exact insertAfter_extends h.within hadd

/-- What a target was given went into its array, unless it was there. -/
lemma addTargetDependency_edits (hok : (addTargetDependency t target identifier).outcome = .ok t') :
    ∃ ts found array, (locateTargets t).outcome = .ok ts ∧ ts.find? (·.name = target) = some found ∧
      targetDependencies? t found.span = .ok (some array) ∧
        (t' = t ∨ appendElement t array (StringLiteral.encode identifier) = .ok t') := by
  rw [addTargetDependency] at hok
  obtain ⟨ts, hts, hok⟩ := Attempt.bind_eq_ok.mp hok
  cases hfind : ts.find? (fun t => t.name = target) with
  | none => simp [hfind] at hok
  | some found =>
    simp only [hfind] at hok
    obtain ⟨array, harray, hok⟩ := Attempt.bind_eq_ok.mp hok
    cases array with
    | none => simp at hok
    | some array =>
      refine ⟨ts, found, array, mapError_eq_ok.mp hts, hfind, mapError_eq_ok.mp harray, ?_⟩
      simp only at hok
      split_ifs at hok
      · obtain ⟨-, -, hok⟩ := Attempt.bind_eq_ok.mp hok
        exact .inl (Except.ok.inj hok).symm
      · obtain ⟨edited, hadd, hok⟩ := Attempt.bind_eq_ok.mp hok
        obtain ⟨-, -, hok⟩ := Attempt.bind_eq_ok.mp hok
        obtain rfl := Except.ok.inj hok
        exact .inr (mapError_eq_ok.mp hadd)

lemma targetDependencies?_isArray {call : Call} {w : Text} (hl : Lexed ps) (h : Stands ps call a w z)
    (hd : targetDependencies? (textOf ps) call.span = .ok (some list)) : IsArray (textOf ps) list := by
  rcases targetDependencies?_stands hl h with
    ⟨-, hn | ⟨pos, hn⟩⟩ | ⟨y, d, rest, es, list', hshow, -, hlist, hsome⟩
  · simp [hn] at hd
  · simp [hn] at hd
  · obtain rfl := Option.some.inj (Except.ok.inj (hsome.symm.trans hd))
    exact isArray_textOf (hshow.within h.opened) hlist

theorem addTargetDependency_extends (hok : (addTargetDependency t target identifier).outcome = .ok t') :
    Text.Extends (Carries (StringLiteral.encode identifier)) t t' := by
  obtain ⟨ts, found, array, hloc, hfind, hd, rfl | hadd⟩ := addTargetDependency_edits hok
  · exact .refl
  · obtain ⟨ps, shown, rfl, hshown, rfl⟩ := locateTargets_eq_ok.mp hloc
    obtain ⟨s, hs, rfl⟩ := List.mem_map.mp (List.mem_of_find?_eq_some hfind)
    obtain ⟨a, w, z, hst⟩ := hshown.stands hs
    exact appendElement_extends (targetDependencies?_isArray hshown.lexed hst hd) hadd

theorem wireFrom_extends {wired : List Text} (hok : (wireFrom identifier wired t names).outcome = .ok t') :
    Text.Extends (Carries (StringLiteral.encode identifier)) t t' := by
  induction names generalizing t wired with
  | nil =>
    obtain rfl := Except.ok.inj hok
    exact .refl
  | cons target rest ih =>
    rw [wireFrom_cons] at hok
    cases hadd : (addTargetDependency t target identifier).outcome with
    | error cause => simp [hadd] at hok
    | ok edited =>
      rw [hadd] at hok
      exact (addTargetDependency_extends hadd).trans (ih hok)

lemma firstMark_filler {c : Char} (hw : ∀ c ∈ w, Text.isBlank c = true ∨ c = ',') (h : Text.firstMark w = some c) :
    c = ',' :=
  (hw c (List.mem_of_find?_eq_some h)).resolve_left (by simpa using List.find?_some h)

lemma firstMark_around {d : Char} (hd : ',' ≠ d) (hw : ∀ c ∈ w, Text.isBlank c = true ∨ c = ',')
    (h : ∃ c, Text.firstMark x = some c ∧ c ≠ d) (w' : Text) :
    ∃ c, Text.firstMark (w ++ x ++ w') = some c ∧ c ≠ d := by
  obtain ⟨c, hc, hne⟩ := h
  rw [Text.firstMark_append, Text.firstMark_append, hc]
  cases hf : Text.firstMark w with
  | none => exact ⟨c, rfl, hne⟩
  | some e =>
    obtain rfl := firstMark_filler hw hf
    exact ⟨',', rfl, hd⟩

lemma Carries.solid (h : Carries x p) (hx : Text.Solid x) : Text.Solid p := by
  rcases h with rfl | ⟨w, w', rfl, hw⟩
  · exact ⟨⟨',', by decide, by decide⟩, ⟨',', by decide, by decide⟩⟩
  · obtain ⟨hw, hw'⟩ := List.forall_mem_append.mp hw
    refine ⟨firstMark_around (by decide) hw hx.opens w', ?_⟩
    rw [List.reverse_append, List.reverse_append, ← List.append_assoc]
    exact firstMark_around (by decide) (fun c hc => hw' c (List.mem_reverse.mp hc)) hx.closes w.reverse

lemma encode_solid (v : Text) : Text.Solid (StringLiteral.encode v) := by
  rw [StringLiteral.encode, List.cons_append]
  exact Text.solid_of_ends (by decide) (by decide) _

lemma renderDeclaration_solid (reference : Reference) : Text.Solid (renderDeclaration reference) := by
  have h : ".package(url: ".toList = '.' :: "package(url: ".toList := by decide
  have h' : "))".toList = [')'] ++ [')'] := by decide
  unfold renderDeclaration
  rw [h, h', ← List.append_assoc]
  simp only [List.cons_append]
  exact Text.solid_of_ends (by decide) (by decide) _

lemma CarriesPackage.solid (h : CarriesPackage reference p) : Text.Solid p := by
  rcases h with h | ⟨w, w', -, h⟩
  · exact h.solid (renderDeclaration_solid reference)
  · have hlabel : dependenciesLabel = 'd' :: "ependencies".toList := by decide
    refine h.solid ?_
    rw [hlabel]
    simp only [List.cons_append]
    exact Text.solid_of_ends (by decide) (by decide) _

end PackageInstaller.Manifest
