import PackageInstaller.Proofs.Shown

/-! What the first package call declares, and what is left of it when an element that declares no
package is put into an array. -/

namespace PackageInstaller.Manifest

/-- A list with elements of which none declares a package has no block comment before the first. -/
def Clear (b : List Piece) : Prop := ∀ {cs d es}, contents b = some cs → dependencyBody? cs = some d →
  contents d = some es → es ≠ [] → (∀ c ∈ es, isDeclaration (valueOf c) = false) →
    ∀ m, .literal m ∈ preface d → ¬['/', '*'].isPrefixOf m = true

/-- The first `n` of `xs` end with the last that has the property, and are none if none has it. -/
def UpToLast {α : Type} (p : α → Bool) (n : Nat) (xs : List α) : Prop :=
  n ≤ xs.length ∧ (∀ x ∈ (xs.take n).getLast?, p x = true) ∧ ∀ x ∈ xs.drop n, p x = false

/-- The packages with these URLs are declared. -/
def Presents (ps : List Piece) (urls : List Text) : Prop :=
  (packageSites ps = [] ∧ urls = []) ∨ ∃ a w b z, Holds ps a w b z ∧ packageUrls b = some urls

/-- Whatever the first package call holds, it is clear. -/
def Receptive (ps : List Piece) : Prop := ∀ a w b z, Holds ps a w b z → Clear b

/-- What is declared stays declared, and a call that takes another declaration still does. -/
def Keeps (ps ps' : List Piece) : Prop :=
  ∀ urls, Presents ps urls → Presents ps' urls ∧ (Receptive ps → Receptive ps')

lemma Keeps.refl (ps : List Piece) : Keeps ps ps := fun _ hp => ⟨hp, id⟩

lemma Keeps.trans {ps ps' ps'' : List Piece} (h : Keeps ps ps') (h' : Keeps ps' ps'') : Keeps ps ps'' := by
  intro urls hp
  obtain ⟨hp', hc⟩ := h urls hp
  obtain ⟨hp'', hc'⟩ := h' urls hp'
  exact ⟨hp'', fun h => hc' (hc h)⟩

variable {ps : List Piece} {urls : List Text}

lemma Presents.declaredUrls (h : Presents ps urls) (hl : Lexed ps) :
    declaredUrls (textOf ps) = .ok urls := by
  rcases h with ⟨hn, rfl⟩ | ⟨a, w, b, z, hh, hu⟩
  · exact declaredUrls_of_nil hl hn
  · have htold := declaredUrls_holds hl hh
    rw [hu] at htold
    exact htold

lemma presents_of_declaredUrls (hl : Lexed ps) (h : declaredUrls (textOf ps) = .ok urls) : Presents ps urls :=
  declaredUrls_cases hl h

lemma not_holds_of_nil {a b z : List Piece} {w : Text} (hn : packageSites ps = []) : ¬Holds ps a w b z := by
  intro hh
  obtain ⟨s, rest, hs, -⟩ := hh.first
  simp [hn] at hs

lemma Holds.eq_body {a b z a' b' z' : List Piece} {w w' : Text} (h : Holds ps a w b z)
    (h' : Holds ps a' w' b' z') : b' = b := by
  obtain ⟨s, rest, hs, hin, -⟩ := h.first
  obtain ⟨s', rest', hs', hin', -⟩ := h'.first
  obtain ⟨rfl, -⟩ := List.cons.inj (hs.symm.trans hs')
  have hb := (interior?_iff (o := '(') rfl).mpr ⟨z, hin, h.balanced⟩
  exact Option.some.inj (((interior?_iff (o := '(') rfl).mpr ⟨z', hin', h'.balanced⟩).symm.trans hb)

lemma Holds.receptive {a b z : List Piece} {w : Text} (h : Holds ps a w b z) (hc : Clear b) :
    Receptive ps := fun _ _ _ _ h' => h.eq_body h' ▸ hc

lemma urlsIn_append (u v : List (List Piece)) :
    urlsIn (u ++ v) = (urlsIn u).bind fun us => (urlsIn v).map (us ++ ·) := by
  induction u with
  | nil => simp [urlsIn]
  | cons c u ih =>
    rw [List.cons_append, urlsIn, urlsIn, ih]
    split_ifs
    · cases urlOf (valueOf c) <;> cases urlsIn u <;> cases urlsIn v <;> simp
    · rfl

lemma urlsIn_none {v : List (List Piece)} (h : ∀ c ∈ v, isDeclaration (valueOf c) = false) :
    urlsIn v = some [] := by
  induction v with
  | nil => rfl
  | cons c v ih =>
    rw [urlsIn, if_neg (by simp [h c List.mem_cons_self]), ih fun d hd => h d (List.mem_cons_of_mem _ hd)]

lemma UpToLast.of_map {α β : Type} {p : α → Bool} {q : β → Bool} {n : Nat} {xs : List α} {ys : List β}
    (h : UpToLast p n xs) (hm : xs.map p = ys.map q) : UpToLast q n ys := by
  obtain ⟨hn, hlast, hnone⟩ := h
  have htake := congrArg (fun zs => (List.take n zs).getLast?) hm
  have hdrop := congrArg (List.drop n) hm
  simp only [← List.map_take, ← List.map_drop, List.getLast?_map] at htake hdrop
  refine ⟨?_, fun y hy => ?_, fun y hy => ?_⟩
  · rwa [← List.length_map (f := q), ← hm, List.length_map]
  · rw [hy, Option.map_some] at htake
    obtain ⟨x, hx, hpx⟩ := Option.map_eq_some_iff.mp htake
    rw [← hpx, hlast x hx]
  · obtain ⟨x, hx, hpx⟩ := List.mem_map.mp (hdrop ▸ List.mem_map_of_mem hy)
    rw [← hpx, hnone x hx]

lemma upToLast_append {α : Type} {p : α → Bool} {xs ys : List α} : UpToLast p xs.length (xs ++ ys) ↔
    (∀ x ∈ xs.getLast?, p x = true) ∧ ∀ y ∈ ys, p y = false := by
  rw [UpToLast, List.take_left, List.drop_left, List.length_append]
  exact and_iff_right (Nat.le_add_right _ _)

lemma upToLast_indices {α : Type} (p : α → Bool) (xs : List α) :
    UpToLast p (((xs.zipIdx.filter fun (y, _) => p y).map (·.2)).getLast?.elim 0 (· + 1)) xs := by
  induction xs using List.reverseRecOn with
  | nil => exact ⟨Nat.le_refl _, by simp, by simp⟩
  | append_singleton xs x ih =>
    rw [List.zipIdx_append, List.filter_append, List.map_append, List.zipIdx_singleton,
      List.filter_singleton]
    cases hp : p x with
    | true =>
      simp only [hp, cond_true, List.map_singleton, List.getLast?_concat, Option.elim_some, Nat.zero_add]
      refine ⟨by simp, fun y hy => ?_, by simp⟩
      rw [List.take_of_length_le (by simp), List.getLast?_concat] at hy
      rw [← Option.some.inj hy, hp]
    | false =>
      simp only [hp, cond_false, List.map_nil, List.append_nil]
      generalize Option.elim _ 0 _ = n at ih ⊢
      obtain ⟨hn, hlast, hnone⟩ := ih
      refine ⟨by simp; omega, ?_, fun y hy => ?_⟩
      · rwa [List.take_append_of_le_length hn]
      · rw [List.drop_append_of_le_length hn] at hy
        rcases List.mem_append.mp hy with hy | hy
        · exact hnone y hy
        · rw [List.mem_singleton.mp hy, hp]

lemma declarations_reads {items : List Argument} {es : List (List Piece)} (hl : Lexed ps)
    (h : List.Forall₂ (Reads ps) items es) :
    (items.map fun item => isPackageDeclaration (textOf ps) item.value) =
      es.map fun c => isDeclaration (valueOf c) :=
  map_reads h fun hr => isPackageDeclaration_reads hr hl

lemma existing_eq_nil {list : ArgumentList} {es : List (List Piece)} (hl : Lexed ps)
    (h : List.Forall₂ (Reads ps) list.items es) (hn : ∀ c ∈ es, isDeclaration (valueOf c) = false) :
    existingDependencies (textOf ps) list = [] := by
  rw [existingDependencies, List.map_eq_nil_iff, List.filter_eq_nil_iff]
  intro p hp
  have hitem := List.mem_map_of_mem (f := fun item => isPackageDeclaration (textOf ps) item.value)
    (List.fst_mem_of_mem_zipIdx hp)
  rw [declarations_reads hl h] at hitem
  obtain ⟨c, hc, hvalue⟩ := List.mem_map.mp hitem
  simp [← hvalue, hn c hc]

lemma upToLast_existing {list : ArgumentList} {es : List (List Piece)} (hl : Lexed ps)
    (h : List.Forall₂ (Reads ps) list.items es) : UpToLast (fun c => isDeclaration (valueOf c))
      ((existingDependencies (textOf ps) list).getLast?.elim 0 (· + 1)) es :=
  (upToLast_indices (fun item : Argument => isPackageDeclaration (textOf ps) item.value) list.items).of_map
    (declarations_reads hl h)

/-- If the list has elements but declares no package, no block comment stands before the first of them. -/
def ClearBefore (t : Text) (list : ArgumentList) : Prop :=
  existingDependencies t list = [] → ∀ first ∈ list.items.head?,
    ∀ index ∈ (LiteralIndex.ofText t).toOption, ∀ span ∈ index.spans.toList,
      list.opener < span.start → span.stop ≤ first.span.start → ¬['/', '*'].isPrefixOf (t.drop span.start) = true

instance (t : Text) (list : ArgumentList) : Decidable (ClearBefore t list) := by
  delta ClearBefore
  infer_instance

/-- The dependency list of the first package call is clear before its first element. -/
def ClearList (t : Text) : Prop := ∀ args ∈ (packageArguments? t).toOption.join,
  ∀ list ∈ (dependencyArray? t args).toOption.join, ClearBefore t list

instance (t : Text) : Decidable (ClearList t) := by
  delta ClearList
  infer_instance

lemma mem_join_toOption {ε α : Type} {r : Except ε (Option α)} {x : α} (h : r = .ok (some x)) :
    x ∈ r.toOption.join := by
  rw [h]
  rfl

lemma clear_of_holds {a b z : List Piece} {w : Text} (hl : Lexed ps) (hh : Holds ps a w b z)
    (hc : ClearList (textOf ps)) : Clear b := by
  intro cs d es hcs hd hes hne hnone m hm
  obtain ⟨r, hr, hp⟩ := packageArguments?_holds hl hh
  obtain ⟨args, rfl, hargs⟩ := hr.lists hcs
  obtain ⟨y, rest, list, hshow, harr, hlist⟩ := hargs.dependencies hl rfl hh.balanced hh.pieces hd hes
  have hps := hshow.within hh.pieces
  generalize a ++ chars ('P' :: w) ++ .char '(' :: y = p at hps hlist
  obtain ⟨first, later, hitems⟩ : ∃ first later, list.items = first :: later := by
    refine List.exists_cons_of_ne_nil fun hi => hne (List.length_eq_zero_iff.mp ?_)
    rw [← hlist.reads.length_eq, hi, List.length_nil]
  obtain ⟨s, v, hseg, -, hfirst⟩ := argumentsFrom_head (hitems ▸ hlist.items)
  rw [preface, hseg, List.headD_cons] at hm
  obtain ⟨g, y', hg⟩ := List.append_of_mem hm
  obtain ⟨c, hd'⟩ := exists_after_lead hseg
  -- the literal stands in the whole text, after the bracket and before the first element
  rw [hd', hg] at hps
  have hps' : ps = p ++ .char '[' :: g ++ .literal m :: (y' ++ (core s ++ c) ++ .char ']' :: (rest ++ .char ')' :: z)) := by
    simpa using hps
  have hspan : (⟨(textOf (p ++ .char '[' :: g)).length, (textOf (p ++ .char '[' :: g)).length + m.length⟩ : Span) ∈
      literalSpans 0 ps := mem_literalSpans.mpr ⟨_, m, _, hps', by simp⟩
  have hblock := hc _ (mem_join_toOption hp) _ (mem_join_toOption harr) (existing_eq_nil hl hlist.reads hnone)
    first (by rw [hitems]; rfl) ⟨(literalSpans 0 ps).toArray⟩ (by rw [ofText_textOf hl]; rfl) _ hspan ?_ ?_
  · rw [hps', drop_textOf] at hblock
    intro hpre
    exact hblock (List.isPrefixOf_iff_prefix.mpr ((List.isPrefixOf_iff_prefix.mp hpre).trans (List.prefix_append _ _)))
  · rw [hlist.opener]
    simp [Piece.text]
  · rw [hfirst, hg]
    simp [Piece.text]
    omega

lemma receptive_of_clearList (hl : Lexed ps) (hc : ClearList (textOf ps)) : Receptive ps :=
  fun _ _ _ _ hh => clear_of_holds hl hh hc

variable {e : Splice} {f : Text → Text} {a l r z x d d' : List Piece} {es : List (List Piece)}

lemma Splice.Deep.on_preface (he : e.Even) (hb : Balanced d) (h : e.Deep d d') :
    preface d' = preface d := by
  have hseg := h.on_segments he hb
  have hbal : ∀ s ∈ segments d, Balanced s := fun s hs => (segment_of_mem hb hs).balanced
  rw [preface, preface]
  generalize segments d = u at hseg hbal ⊢
  generalize segments d' = u' at hseg ⊢
  cases hseg with
  | nil => rfl
  | cons hs _ => exact (hs.on_core he (hbal _ List.mem_cons_self)).2

lemma Splice.within_of_open {o k : Char} {p u v t : List Piece} (hu : e.before = p ++ .char o :: u)
    (hv : e.after = v ++ .char k :: t) (hb : Balanced (u ++ e.old ++ v)) :
    e.Within o k (u ++ e.old ++ v) (u ++ e.new ++ v) := by
  rw [List.append_assoc] at hb
  obtain ⟨s, hs⟩ := exists_walk_left hb
  refine .inr ⟨u, v, s, ⟨rfl, rfl, ?_, ?_⟩, hs, ?_, ?_⟩
  · exact ⟨p ++ [.char o], by rw [hu]; simp⟩
  · exact ⟨.char k :: t, hv.symm⟩
  · exact ⟨p, hu.symm⟩
  · exact ⟨t, by rw [hv]; simp⟩

lemma declares_none_deep {es es' : List (List Piece)} (he : e.Even) (h : List.Forall₂ e.Deep es es')
    (hl : ∀ c ∈ es, Lexed c) (hb : ∀ c ∈ es, Balanced c) :
    (∀ c ∈ es', isDeclaration (valueOf c) = false) → ∀ c ∈ es, isDeclaration (valueOf c) = false := by
  induction h with
  | nil => exact fun _ => by simp
  | @cons c c' es es' hc _ ih =>
    have hlc := hl c List.mem_cons_self
    have hv := (hc.on_value hlc).2.on_declaration he (hlc.part (valueOf_suffix hlc).isInfix)
      (valueOf_balanced hlc (hb c List.mem_cons_self))
    intro hn
    rw [List.forall_mem_cons] at hn ⊢
    exact ⟨hv.1.symm.trans hn.1, ih (fun d hd => hl d (List.mem_cons_of_mem _ hd))
      (fun d hd => hb d (List.mem_cons_of_mem _ hd)) hn.2⟩

lemma list_kept (h : Inserts e f a l r z '[' ']' es [] x) (held : contents (l ++ e.old ++ r) = some es)
    (hx : isDeclaration (valueOf x) = false) (hl : Lexed d) (hb : Balanced d)
    (hd : e.Within '[' ']' d d') : (contents d').bind urlsIn = (contents d).bind urlsIn ∧
      ∀ {us'}, contents d' = some us' → us' ≠ [] → (∀ c ∈ us', isDeclaration (valueOf c) = false) →
        ∃ us, contents d = some us ∧ (∀ c ∈ us, isDeclaration (valueOf c) = false) ∧
          ((us ≠ [] ∧ preface d' = preface d) ∨ ∀ m, .literal m ∉ preface d') := by
  rcases hd.cases h.even (h.host rfl) rfl hb with hdeep | ⟨-, rfl, rfl⟩
  · have hrel := hdeep.on_contents h.even hb
    have hmem : ∀ us, contents d = some us → ∀ c ∈ us, Lexed c ∧ Balanced c := fun us hus c hc =>
      ⟨hl.part (mem_contents hb hus c hc).1, (mem_contents hb hus c hc).2.1⟩
    generalize contents d = us at hrel hmem ⊢
    generalize contents d' = us' at hrel ⊢
    cases hrel with
    | none => exact ⟨rfl, by simp⟩
    | @some us us' hf =>
      have hmem := hmem us rfl
      refine ⟨Splice.Deep.on_urlsIn h.even (h.host rfl) hf (fun c hc => (hmem c hc).1)
        fun c hc => (hmem c hc).2, ?_⟩
      rintro _ ⟨⟩ hne hn
      refine ⟨us, rfl, declares_none_deep h.even hf (fun c hc => (hmem c hc).1) (fun c hc => (hmem c hc).2) hn,
        .inl ⟨?_, hdeep.on_preface h.even hb⟩⟩
      rintro rfl
      cases hf
      exact hne rfl
  · rw [held, h.contents]
    refine ⟨?_, ?_⟩
    · rw [Option.bind_some, Option.bind_some, urlsIn_append,
        urlsIn_none (v := [x]) (by simpa using hx)]
      cases urlsIn es <;> simp
    · rintro _ ⟨⟩ - hn
      refine ⟨es, rfl, fun c hc => hn c (List.mem_append_left _ hc), ?_⟩
      by_cases hes : es = []
      · exact .inr (h.preface.2 hes rfl)
      · exact .inl ⟨hes, h.preface.1 hes⟩

lemma arguments_kept {c c' : List Piece} (h : Inserts e f a l r z '[' ']' es [] x)
    (held : contents (l ++ e.old ++ r) = some es) (hx : isDeclaration (valueOf x) = false) (hl : Lexed c)
    (hb : Balanced c) (hc : e.Deep c c') :
    packageUrls c' = packageUrls c ∧ (Clear c → Clear c') := by
  have hrel := hc.on_contents h.even hb
  have hmem : ∀ cs, contents c = some cs → ∀ d ∈ cs, Lexed d ∧ Balanced d := fun cs hcs d hd =>
    ⟨hl.part (mem_contents hb hcs d hd).1, (mem_contents hb hcs d hd).2.1⟩
  have hmem' : ∀ {cs d}, contents c = some cs → dependencyBody? cs = some d → Lexed d := by
    intro cs d hcs hd
    obtain ⟨v, hv, hdv⟩ := Option.bind_eq_some_iff.mp hd
    obtain ⟨t, ht, -⟩ := arrayBody?_eq_some hdv
    have hlv := (hmem cs hcs v (List.mem_of_find?_eq_some hv)).1
    refine (hlv.part (valueOf_suffix hlv).isInfix).part ⟨[.char '['], .char ']' :: t, ?_⟩
    rw [ht]
    simp
  rw [packageUrls, packageUrls]
  cases hcs : contents c with
  | none =>
    rw [hcs] at hrel
    generalize hcs' : contents c' = cs' at hrel
    cases hrel
    exact ⟨rfl, fun _ => fun {cs d es'} h₁ => by simp [hcs'] at h₁⟩
  | some cs =>
    rw [hcs] at hrel
    generalize hcs' : contents c' = cs' at hrel
    cases hrel with
    | @some _ cs' hf =>
      have hm := hmem cs hcs
      rcases Splice.Deep.on_dependencyBody h.even hf (fun d hd => (hm d hd).1) (fun d hd => (hm d hd).2) with
        ⟨hn, hn'⟩ | ⟨d, d', hd, hd', hdb, hin⟩
      · simp only [Option.bind_some, hn, hn', true_and]
        intro _ cs₁ d₁ es₁ h₁ h₂
        rw [hcs'] at h₁
        obtain rfl := Option.some.inj h₁
        simp [hn'] at h₂
      · obtain ⟨hurls, hclear⟩ := list_kept h held hx (hmem' hcs hd) hdb hin
        simp only [Option.bind_some, hd, hd']
        refine ⟨hurls, fun hc => fun {cs₁ d₁ us'} h₁ h₂ hus' hne hn m hm => ?_⟩
        rw [hcs'] at h₁
        obtain rfl := Option.some.inj h₁
        obtain rfl := Option.some.inj (hd'.symm.trans h₂)
        obtain ⟨us, hus, hnone, ⟨hne', hpre⟩ | hno⟩ := hclear hus' hne hn
        · rw [hpre] at hm
          exact hc hcs hd hus hne' hnone m hm
        · exact absurd hm (hno m)

/-- An element that declares no package, put after the others of its array. -/
theorem keeps_target (h : Inserts e f a l r z '[' ']' es [] x)
    (held : contents (l ++ e.old ++ r) = some es) (hx : isDeclaration (valueOf x) = false)
    (hl : Lexed e.source) : Keeps e.source e.target := by
  intro urls hp
  rcases hp with ⟨hn, rfl⟩ | ⟨b, w, c, y, hh, hu⟩
  · have hn' := packageSites_target_nil h hl (h.rest rfl) hn
    exact ⟨.inl ⟨hn', rfl⟩, fun _ _ _ _ _ hh => absurd hh (not_holds_of_nil hn')⟩
  · obtain ⟨b', w', c', y', hh', hcase⟩ := holds_target h hl hh (.inl (h.rest rfl))
    have hlc : Lexed c := by
      rw [hh.pieces] at hl
      exact hl.right.tail.left
    have hdeep : e.Deep c c' := by
      rcases hcase with rfl | ⟨u, v, t, hb, ha, rfl, rfl⟩
      · exact .refl _
      · refine ((Splice.within_of_open hb ha hh.balanced).cases h.even (h.host rfl) rfl
          hh.balanced).resolve_right fun hc => ?_
        exact absurd hc.1 (by decide)
    obtain ⟨hurls, hclear⟩ := arguments_kept h held hx hlc hh.balanced hdeep
    exact ⟨.inr ⟨b', w', c', y', hh', hurls.trans hu⟩, fun hc => hh'.receptive (hclear (hc b w c y hh))⟩

end PackageInstaller.Manifest
