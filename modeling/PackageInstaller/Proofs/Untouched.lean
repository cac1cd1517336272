import PackageInstaller.Proofs.Additions
import PackageInstaller.Proofs.ListEdits

/-! Text that an edit leaves as it was. Between the brackets of the edited list at most two pieces come in, and the
items stay in their order; outside of them nothing changes. -/

namespace PackageInstaller.Manifest

open Layout

/-- The text `r` is `t` with at most two pieces put in. -/
def Patched (t r : Text) : Prop := ∃ a b c p q, t = a ++ b ++ c ∧ r = a ++ p ++ b ++ q ++ c

/-- The texts stand in `t`, one after the other. -/
def InOrder : List Text → Text → Prop
  | [], _ => True
  | x :: xs, t => ∃ u v, t = u ++ x ++ v ∧ InOrder xs v

/-- In `r` the text `d'` stands between the brackets of the list, where in `t` there is `d`. -/
structure Leaves (t r : Text) (list : ArgumentList) (d d' : Text) : Prop where
  source : t = t.take (list.opener + 1) ++ d ++ t.drop list.closer
  result : r = t.take (list.opener + 1) ++ d' ++ t.drop list.closer
  brackets : ∃ o k, t[list.opener]? = some o ∧ t[list.closer]? = some k ∧ closerOf? o = some k
  patched : Patched t r ∨ list.items = [] ∧ ∀ c ∈ d, Text.isBlank c = true
  items : InOrder ((list.shown t).map (·.2)) d'

variable {t r u v x z d d' : Text} {xs ys : List Text} {o k : Char} {b : List Piece} {es : List (List Piece)}
  {args : ArgumentList} {opener n : Nat}

lemma Patched.refl (t : Text) : Patched t t := ⟨t, [], [], [], [], by simp, by simp⟩

lemma Patched.once (a c p : Text) : Patched (a ++ c) (a ++ p ++ c) := ⟨a, [], c, p, [], by simp, by simp⟩

lemma Patched.around (h : Patched d d') (u z : Text) : Patched (u ++ d ++ z) (u ++ d' ++ z) := by
  obtain ⟨a, b, c, p, q, rfl, rfl⟩ := h
  exact ⟨u ++ a, b, c ++ z, p, q, by simp, by simp⟩

namespace InOrder

lemma append_left (h : InOrder xs t) (u : Text) : InOrder xs (u ++ t) := by
  cases xs with
  | nil => trivial
  | cons x xs =>
    obtain ⟨a, v, rfl, hv⟩ := h
    exact ⟨u ++ a, v, by simp, hv⟩

lemma append (hx : InOrder xs t) (hy : InOrder ys u) : InOrder (xs ++ ys) (t ++ u) := by
  induction xs generalizing t with
  | nil => exact hy.append_left t
  | cons x xs ih =>
    obtain ⟨a, v, rfl, hv⟩ := hx
    exact ⟨a, v ++ u, by simp, ih hv⟩

lemma append_right (h : InOrder xs t) (u : Text) : InOrder xs (t ++ u) := by
  have hall := h.append (show InOrder [] u from trivial)
  rwa [List.append_nil] at hall

lemma of_core (s : List Piece) : InOrder [textOf (core s)] (textOf s) := by
  obtain ⟨r, hr, -⟩ := exists_trail s
  refine ⟨textOf (lead s), textOf r, ?_, trivial⟩
  conv_lhs => rw [hr]
  simp

lemma of_leading (u : List (List Piece)) : InOrder ((u.map core).map textOf) (textOf (leading u)) := by
  induction u with
  | nil => trivial
  | cons s u ih =>
    have hall := ((of_core s).append_right [',']).append ih
    simpa [leading, comma, Piece.text] using hall

lemma of_entries {segs : List (List Piece)} (h : entries segs = some es) :
    InOrder (es.map textOf) (textOf (joined segs)) := by
  rcases List.eq_nil_or_concat' segs with rfl | ⟨u, s, rfl⟩
  · obtain rfl : [] = es := Option.some.inj h
    trivial
  · rw [entries_append (core_ne_nil_of_entries h (List.cons_ne_nil _ _))] at h
    obtain ⟨cs, hcs, rfl⟩ := Option.map_eq_some_iff.mp h
    have hlast : InOrder (cs.map textOf) (textOf s) := by
      obtain rfl := Option.some.inj hcs
      split_ifs
      · trivial
      · exact of_core s
    rw [joined_mid, following, List.flatMap_nil, List.append_nil, textOf_append, List.map_append]
    exact (of_leading u).append hlast

end InOrder

namespace Slot

variable {l old pre post r : List Piece} (h : Slot b n l old pre post r)

include h

lemma patched (hn : 0 < n) (x : Text) :
    Patched (textOf b) (textOf (l ++ pre) ++ x ++ textOf (post ++ r)) := by
  rw [h.source]
  cases h with
  | @ahead u v g y w w' =>
    exact ⟨textOf (leading u ++ g), [], textOf (y ++ following v), w ++ x ++ ',' :: w', [], by simp, by simp⟩
  | @last u s _ _ w =>
    exact ⟨textOf (leading u ++ s), textOf old, textOf r, [','], w ++ x, by simp, by simp [comma, Piece.text]⟩
  | only => exact absurd hn (Nat.lt_irrefl 0)

lemma inOrder (hes : contents b = some es) (x : Text) :
    InOrder (es.map textOf) (textOf (l ++ pre) ++ x ++ textOf (post ++ r)) := by
  rw [contents] at hes
  cases h with
  | @ahead u v g y w w' hseg _ hg =>
    rw [hseg] at hes
    rw [entries_append (core_ne_nil_of_entries hes (List.cons_ne_nil _ _))] at hes
    obtain ⟨cs, hcs, rfl⟩ := Option.map_eq_some_iff.mp hes
    have hcores : ((g ++ y) :: v).map core = (y :: v).map core := by
      rw [List.map_cons, List.map_cons, core_trivial_append hg]
    have hbehind := InOrder.of_entries (entries_congr hcores ▸ hcs)
    have hall := (InOrder.of_leading u).append (hbehind.append_left (textOf g ++ w ++ x ++ ',' :: w'))
    rw [joined_head, ← List.map_append] at hall
    simpa using hall
  | @last u s _ _ w hseg _ _ hg hy =>
    have hcores : (u ++ [s ++ old ++ r]).map core = (u ++ [s]).map core := by
      have htrim : core (s ++ old ++ r) = core s := by
        rw [core, core, List.append_assoc, trimmed_append_trivial s (hg.append hy)]
      rw [List.map_append, List.map_append, List.map_singleton, List.map_singleton, htrim]
    have hbefore := InOrder.of_entries (entries_congr hcores ▸ hseg ▸ hes)
    have hall := hbefore.append_right (',' :: (textOf old ++ w ++ x ++ textOf r))
    rw [joined_mid] at hall
    simpa [following, comma, Piece.text] using hall
  | only hd hy hv =>
    obtain rfl := Option.some.inj ((contents_trivial ((trivial_chars hv).append hy)).symm.trans (hd ▸ hes))
    trivial

end Slot

lemma Grouped.leaves (hg : Grouped t u o k b z) (hargs : splitArguments t u.length = .ok args)
    (d' : Text) (hr : r = u ++ o :: (d' ++ k :: z))
    (hp : Patched (textOf b) d' ∨ args.items = [] ∧ ∀ c ∈ textOf b, Text.isBlank c = true)
    (hi : InOrder ((args.shown t).map (·.2)) d') : Leaves t r args (textOf b) d' := by
  obtain ⟨ho, hc, -⟩ := hg.items hargs
  obtain ⟨htake, hdrop⟩ := hg.outside hargs
  have hsource : t = u ++ [o] ++ textOf b ++ k :: z := by
    rw [hg.text]
    simp
  have hresult : r = u ++ [o] ++ d' ++ k :: z := by
    rw [hr]
    simp
  refine ⟨?_, ?_, ⟨o, k, ?_, ?_, hg.brackets⟩, ?_, hi⟩
  · rw [ho, htake, hdrop]
    exact hsource
  · rw [ho, htake, hdrop, hresult]
  · rw [ho, hg.text]
    simp
  · rw [← List.head?_drop, hdrop]
    rfl
  · refine hp.imp_left fun hp => ?_
    rw [hsource, hresult]
    exact hp.around _ _

lemma Grouped.texts (hg : Grouped t u o k b z) (hargs : splitArguments t u.length = .ok args) :
    ∃ es, contents b = some es ∧ (args.shown t).map (·.2) = es.map textOf := by
  obtain ⟨es, hes, hshown⟩ := hg.shown hargs
  refine ⟨es, hes, ?_⟩
  rw [hshown, List.map_map]
  rfl

lemma leaves_refl (h : splitArguments t opener = .ok args) : ∃ d d', Leaves t t args d d' := by
  obtain ⟨u, o, k, b, z, hg, rfl, -⟩ := splitArguments_iff.mp h
  obtain ⟨es, hes, htexts⟩ := hg.texts h
  refine ⟨_, _, hg.leaves h _ hg.text (.inl (.refl _)) ?_⟩
  rw [htexts]
  have hall := InOrder.of_entries hes
  rwa [joined_segments] at hall

lemma insertAfter_leaves (h : splitArguments t opener = .ok args) (hok : insertAfter t args n x = .ok r) :
    ∃ d d', Leaves t r args d d' := by
  obtain ⟨u, o, k, b, z, hg, rfl, ho, hc, hitems⟩ := splitArguments_iff.mp h
  have hn : n < args.items.length := by
    by_contra hn
    rw [insertAfter, List.getElem?_eq_none (Nat.le_of_not_lt hn)] at hok
    simp at hok
  obtain ⟨l, old, pre, post, s, hslot, hins⟩ :=
    insertAfter_slot u o hg.lexed (isCloser_of_closerOf? hg.brackets).2.2 hitems hn
  obtain ⟨es, hes, htexts⟩ := hg.texts h
  rw [hg.text] at hok
  have hargs : args = ⟨u.length, u.length + (textOf b).length + 1, args.items⟩ := by rw [← hc, ← ho]
  rw [hargs, hins] at hok
  refine ⟨_, _, hg.leaves h (textOf (l ++ pre) ++ x ++ textOf (post ++ s)) ?_ (.inl ?_) ?_⟩
  · rw [← Except.ok.inj hok]
    simp
  · exact hslot.patched (Nat.succ_pos n) x
  · rw [htexts]
    exact hslot.inOrder hes x

lemma exists_front {first : Argument} {s : List Piece} {w : List (List Piece)} (hg : Grouped t u o k b z)
    (ho : args.opener = u.length) (hseg : segments b = s :: w) (hs : core s ≠ [])
    (hh : args.items.head? = some first) (hplace : first.span.start = u.length + 1 + (textOf (lead s)).length) :
    ∃ p q, textOf (lead s) = p ++ q ∧ front t args first = u.length + 1 + p.length := by
  rcases front_cases hg.lexed hseg hs ho hh hplace hg.text with ⟨g, y, hgy, -, hf⟩ | ⟨g, m, m', y, hgy, -, hf, -⟩
  · exact ⟨textOf g, textOf y, by simp [hgy], hf⟩
  · refine ⟨textOf g ++ (m ++ ['\n']), m' ++ textOf y, by simp [hgy, Piece.text], ?_⟩
    rw [hf]
    simp
    omega

lemma InOrder.after_lead {s : List Piece} {w : List (List Piece)} (hseg : segments b = s :: w)
    (hes : contents b = some es) : ∃ v, textOf b = textOf (lead s) ++ v ∧ InOrder (es.map textOf) v := by
  obtain ⟨y, hy, -⟩ := exists_trail s
  have hcore : core s = core (core s ++ y) := by
    conv_lhs => rw [hy, List.append_assoc, core_trivial_append (lead_trivial s)]
  have hcores : (segments b).map core = ((core s ++ y) :: w).map core := by
    rw [hseg, List.map_cons, List.map_cons, ← hcore]
  rw [contents, entries_congr hcores] at hes
  refine ⟨_, ?_, InOrder.of_entries hes⟩
  rw [← joined_segments b, hseg, joined_head, joined_head]
  conv_lhs => rw [hy]
  simp

lemma prepend_leaves (h : splitArguments t opener = .ok args) (hok : prepend t args x = .ok r) :
    ∃ d d', Leaves t r args d d' := by
  obtain ⟨u, o, k, b, z, hg, rfl, ho, hc, hitems⟩ := splitArguments_iff.mp h
  obtain ⟨es, hes, htexts⟩ := hg.texts h
  cases hfirst : args.items.head? with
  | none =>
    rw [prepend, hfirst] at hok
    simp at hok
  | some first =>
    rw [prepend, hfirst] at hok
    obtain ⟨rest, hrest⟩ := List.head?_eq_some_iff.mp hfirst
    obtain ⟨s, w, hseg, hs, hplace⟩ := argumentsFrom_head (hrest ▸ hitems)
    obtain ⟨v, hb, hitems⟩ := InOrder.after_lead hseg hes
    -- the element goes before the first item, perhaps into a comment, but never into an item
    obtain ⟨p, q, hpq, hfront⟩ := exists_front hg ho hseg hs hfirst (by rw [hplace])
    have hpos : u.length + 1 + p.length = (u ++ o :: p).length := by
      simp
      omega
    have htext : t = (u ++ o :: p) ++ (q ++ v ++ k :: z) := by
      rw [hg.text, hb, hpq]
      simp
    have hr : r = insertAt t (u ++ o :: p).length (margin t args first ++ x ++ ',' :: gap t args) := by
      rw [← Except.ok.inj hok, prependToItem_eq, hfront, hpos]
    generalize margin t args first ++ x ++ ',' :: gap t args = piece at hr
    refine ⟨_, _, hg.leaves h (p ++ piece ++ (q ++ v)) ?_ (.inl ?_) ?_⟩
    · rw [hr, htext, insertAt_length]
      simp
    · rw [hb, hpq, List.append_assoc]
      exact .once _ _ _
    · rw [htexts]
      exact (hitems.append_left q).append_left (p ++ piece)

lemma fillEmpty_cases (t : Text) (args : ArgumentList) (x : Text) (multi : Bool) :
    (∃ p, fillEmpty t args x multi = insertAt t (args.opener + 1) p) ∨
      (∀ c ∈ t.slice (args.opener + 1) args.closer, Text.isBlank c = true) ∧
        ∃ p, fillEmpty t args x multi = t.take (args.opener + 1) ++ p ++ t.drop args.closer := by
  simp only [fillEmpty]
  split_ifs with _ hkeep hkeep
  · exact .inl ⟨_, rfl⟩
  · exact .inr ⟨by simpa using hkeep, _, by rw [← List.append_assoc _ _ ('\n' :: _)]⟩
  · exact .inl ⟨_, rfl⟩
  · exact .inr ⟨by simpa using hkeep, _, rfl⟩

lemma fillEmpty_leaves (h : splitArguments t opener = .ok args) (hn : args.items = []) (x : Text) (multi : Bool) :
    ∃ d d', Leaves t (fillEmpty t args x multi) args d d' := by
  obtain ⟨u, o, k, b, z, hg, rfl, ho, hc, -⟩ := splitArguments_iff.mp h
  obtain ⟨htake, hdrop⟩ := hg.outside h
  have hnone (d' : Text) : InOrder ((args.shown t).map (·.2)) d' := by
    rw [ArgumentList.shown, hn]
    trivial
  rcases fillEmpty_cases t args x multi with ⟨p, hp⟩ | ⟨hblank, p, hp⟩
  · have htext : t = (u ++ [o]) ++ (textOf b ++ k :: z) := by
      rw [hg.text]
      simp
    have hpos : args.opener + 1 = (u ++ [o]).length := by simp [ho]
    refine ⟨_, _, hg.leaves h ([] ++ p ++ textOf b) ?_ (.inl (.once [] _ p)) (hnone _)⟩
    rw [hp, hpos, htext, insertAt_length]
    simp
  · rw [ho, hc, hg.slice] at hblank
    refine ⟨_, _, hg.leaves h p ?_ (.inr ⟨hn, hblank⟩) (hnone _)⟩
    rw [hp, ho, htake, hdrop]
    simp

lemma packageArguments?_split (h : packageArguments? t = .ok (some args)) :
    ∃ opener, splitArguments t opener = .ok args := by
  rw [packageArguments?] at h
  obtain ⟨calls, -, h⟩ := bind_eq_ok.mp h
  cases calls with
  | nil => simp [pure, Except.pure] at h
  | cons first rest =>
    obtain ⟨found, hfound, h⟩ := bind_eq_ok.mp h
    obtain rfl := Option.some.inj (Except.ok.inj h)
    exact ⟨first.opener, hfound⟩

variable {list : ArgumentList}

lemma dependencyArray?_split (h : dependencyArray? t args = .ok (some list)) :
    ∃ opener, splitArguments t opener = .ok list := by
  rw [dependencyArray?] at h
  split at h
  · simp at h
  · rw [arrayAt?] at h
    split at h
    · simp at h
    · obtain ⟨found, hfound, h⟩ := map_eq_ok.mp h
      obtain rfl := Option.some.inj h
      exact ⟨_, hfound⟩
    · simp at h

lemma targetDependencies?_split {span : Span} (h : targetDependencies? t span = .ok (some list)) :
    ∃ opener, splitArguments t opener = .ok list := by
  rw [targetDependencies?] at h
  obtain ⟨args, -, h⟩ := bind_eq_ok.mp h
  cases args with
  | none => simp [pure, Except.pure] at h
  | some args => exact dependencyArray?_split h

/-- Text that stands is not rewritten. An edit that gives a text only puts something between the brackets of the list
that it is about, or of the package call where that has no list. -/
theorem additions_untouched (t : Text) :
    (∀ reference r, (addPackage t reference).outcome = .ok r → ∃ args list d d',
      packageArguments? t = .ok (some args) ∧ (dependencyArray? t args = .ok (some list) ∨
        dependencyArray? t args = .ok none ∧ list = args) ∧ Leaves t r list d d') ∧
    ∀ target identifier r, (addTargetDependency t target identifier).outcome = .ok r → ∃ ts found list d d',
      (locateTargets t).outcome = .ok ts ∧ ts.find? (·.name = target) = some found ∧
        targetDependencies? t found.span = .ok (some list) ∧ Leaves t r list d d' := by
  constructor
  · intro reference r hok
    rw [addPackage_outcome, map_eq_ok] at hok
    obtain ⟨⟨placement, r⟩, hok, rfl⟩ := hok
    obtain ⟨args, hargs, ⟨hnone, hadd⟩ | ⟨list, hlist, hadd⟩⟩ := placePackage_ok hok
    · obtain ⟨opener, hsplit⟩ := packageArguments?_split hargs
      obtain ⟨n, anchor, hadd⟩ := addList_ok hadd
      obtain ⟨d, d', hleaves⟩ := insertAfter_leaves hsplit hadd
      exact ⟨args, args, d, d', hargs, .inr ⟨hnone, rfl⟩, hleaves⟩
    · obtain ⟨opener, hsplit⟩ := dependencyArray?_split hlist
      have hleaves : ∃ d d', Leaves t r list d d' := by
        rcases addToList_ok hadd with ⟨n, hadd⟩ | ⟨hempty, rfl⟩ | hadd
        · exact insertAfter_leaves hsplit hadd
        · exact fillEmpty_leaves hsplit hempty _ true
        · exact prepend_leaves hsplit hadd
      obtain ⟨d, d', hleaves⟩ := hleaves
      exact ⟨args, list, d, d', hargs, .inl hlist, hleaves⟩
  · intro target identifier r hok
    obtain ⟨ts, found, list, hts, hfind, hlist, hedit⟩ := addTargetDependency_edits hok
    obtain ⟨opener, hsplit⟩ := targetDependencies?_split hlist
    have hleaves : ∃ d d', Leaves t r list d d' := by
      rcases hedit with rfl | hadd
      · exact leaves_refl hsplit
      · rcases appendElement_ok hadd with ⟨hempty, rfl⟩ | ⟨n, hadd⟩
        · exact fillEmpty_leaves hsplit hempty _ false
        · exact insertAfter_leaves hsplit hadd
    obtain ⟨d, d', hleaves⟩ := hleaves
    exact ⟨ts, found, list, d, d', hts, hfind, hlist, hleaves⟩

def spacedList : Text := "Package(name: \"P\", targets: [.target(name: \"A\", dependencies: [ ])])".toList

theorem additions_untouched_spaced :
    (∃ r args list d d', (addPackage spacedList ⟨['u', '\n'], ['\"']⟩).outcome = .ok r ∧
      packageArguments? spacedList = .ok (some args) ∧ Leaves spacedList r list d d') ∧
    ∃ r list d d', (addTargetDependency spacedList ['A'] ['\"', '\n']).outcome = .ok r ∧
      Leaves spacedList r list d d' := by
  have hadded : (addPackage spacedList ⟨['u', '\n'], ['\"']⟩).outcome.isOk = true := by decide +kernel
  have hwired : (addTargetDependency spacedList ['A'] ['\"', '\n']).outcome.isOk = true := by decide +kernel
  obtain ⟨r, hr⟩ := isOk_iff.mp hadded
  obtain ⟨r', hr'⟩ := isOk_iff.mp hwired
  obtain ⟨args, list, d, d', hargs, -, hleaves⟩ := (additions_untouched spacedList).1 _ _ hr
  obtain ⟨ts, found, list', e, e', -, -, -, hleaves'⟩ := (additions_untouched spacedList).2 _ _ _ hr'
  exact ⟨⟨r, args, list, d, d', hr, hargs, hleaves⟩, r', list', e, e', hr', hleaves'⟩

end PackageInstaller.Manifest
