import PackageInstaller.Proofs.Descent

/-! A bracket group in another place of another text. What is read there is told in offsets from the opener, and
depends on the text from the opener to the closer only. -/

namespace PackageInstaller.Manifest

def Argument.shift (d : Nat) (item : Argument) : Argument :=
  ⟨item.label, item.span.shift d, item.value.shift d, item.comma.map (d + ·)⟩

def ArgumentList.shift (d : Nat) (args : ArgumentList) : ArgumentList :=
  ⟨d + args.opener, d + args.closer, args.items.map (·.shift d)⟩

/-- The list that the group of these pieces is, in offsets from its opener. -/
def groupList (b : List Piece) : Scan ArgumentList :=
  (argumentsFrom 1 (segments b)).map fun items => ⟨0, (textOf b).length + 1, items⟩

variable {t u a z : Text} {o k : Char} {b : List Piece} {opener closer place : Nat}

lemma argumentAt_shift (d pos : Nat) (c : List Piece) (comma : Option Nat) :
    argumentAt (d + pos) c (comma.map (d + ·)) = (argumentAt pos c comma).shift d := by
  simp only [argumentAt, Argument.shift, Span.shift, Nat.add_assoc]

lemma argumentsFrom_shift (d pos : Nat) (segs : List (List Piece)) :
    argumentsFrom (d + pos) segs = Scan.from d ((argumentsFrom pos segs).map (·.map (·.shift d))) := by
  induction segs generalizing pos with
  | nil => rfl
  | cons s rest ih =>
    have hlead := argumentAt_shift d (pos + (textOf (lead s)).length) (core s)
    by_cases hrest : rest = []
    · subst hrest
      rw [argumentsFrom, argumentsFrom, Nat.add_assoc]
      split_ifs
      · rfl
      · exact congrArg (fun item => (Except.ok [item] : Scan (List Argument))) (hlead none)
    · have hnext : d + pos + (textOf s).length + 1 = d + (pos + (textOf s).length + 1) := by omega
      rw [argumentsFrom_cons hrest, argumentsFrom_cons hrest, hnext, ih, Nat.add_assoc, Nat.add_assoc]
      split_ifs
      · rfl
      · have hitem := hlead (some (pos + (textOf s).length))
        rw [Option.map_some] at hitem
        rw [hitem]
        cases argumentsFrom (pos + (textOf s).length + 1) rest <;> rfl

lemma Grouped.splitArguments_shift (h : Grouped t a o k b z) :
    splitArguments t a.length = Scan.from a.length ((groupList b).map (·.shift a.length)) := by
  have hlist := splitArguments_eq (u := a) h.brackets h.balanced h.lexed
  rw [← h.text, argumentsFrom_shift] at hlist
  rw [hlist, groupList]
  cases argumentsFrom 1 (segments b) <;> rfl

lemma Grouped.slice_whole (h : Grouped t a o k b z) :
    t.slice a.length (a.length + (textOf b).length + 2) = o :: (textOf b ++ [k]) := by
  have htext : t = a ++ ((o :: (textOf b ++ [k])) ++ z) := by
    rw [h.text]
    simp
  have hstop : a.length + (textOf b).length + 2 = a.length + (o :: (textOf b ++ [k])).length := by
    simp
    omega
  rw [htext, hstop, slice_length]

/-- The same characters are a group wherever they stand: no look ahead at them goes past the closer. -/
lemma Grouped.relocate (h : Grouped t a o k b z)
    (hu : u.slice place (place + ((textOf b).length + 2)) = o :: (textOf b ++ [k])) :
    Grouped u (u.take place) o k b (u.drop (place + ((textOf b).length + 2))) ∧ (u.take place).length = place := by
  have hlen := congrArg List.length hu
  simp only [Text.slice, Nat.add_sub_cancel_left, List.length_take, List.length_drop, List.length_cons,
    List.length_append, List.length_nil] at hlen
  refine ⟨⟨?_, h.brackets, h.balanced, h.lexed.closing (isCloser_of_closerOf? h.brackets).2.2 _⟩,
    List.length_take_of_le (by omega)⟩
  calc u = u.take place ++ (u.drop place).take ((textOf b).length + 2) ++
        (u.drop place).drop ((textOf b).length + 2) := by
        rw [List.append_assoc, List.take_append_drop, List.take_append_drop]
    _ = u.take place ++ o :: (textOf b ++ k :: u.drop (place + ((textOf b).length + 2))) := by
        rw [Text.slice, Nat.add_sub_cancel_left] at hu
        rw [hu, List.drop_drop]
        simp

/-- A group is closed, and split into its items, in the same way in every text that holds it. -/
theorem group_relocated (hc : findClosing t opener = .ok closer)
    (h : u.slice place (place + (closer + 1 - opener)) = t.slice opener (closer + 1)) :
    findClosing u place = .ok (place + (closer - opener)) ∧
    (∀ args, splitArguments t opener = .ok args →
      ∃ list : ArgumentList, args = list.shift opener ∧ splitArguments u place = .ok (list.shift place)) ∧
    ∀ e, splitArguments t opener = .error e →
      ∃ fault : ScanError, e = fault.shift opener ∧ splitArguments u place = .error (fault.shift place) := by
  obtain ⟨a, o, k, b, z, hg, rfl⟩ := grouped_of_findClosing hc
  obtain rfl : a.length + (textOf b).length + 1 = closer := Except.ok.inj (hg.closes.symm.trans hc)
  have hlen : a.length + (textOf b).length + 1 + 1 - a.length = (textOf b).length + 2 := by omega
  rw [hlen, hg.slice_whole] at h
  obtain ⟨hu, hplace⟩ := hg.relocate h
  have hclosing := hu.closes
  have hsplit := hu.splitArguments_shift
  rw [hplace] at hclosing hsplit
  rw [hg.splitArguments_shift, hsplit]
  refine ⟨?_, fun args hargs => ?_, fun e he => ?_⟩
  · rw [hclosing]
    congr 1
    omega
  · cases hlist : groupList b with
    | error fault => simp [hlist, Scan.from, Except.map, Except.mapError] at hargs
    | ok list =>
      rw [hlist] at hargs
      exact ⟨list, (Except.ok.inj hargs).symm, rfl⟩
  · cases hlist : groupList b with
    | error fault =>
      rw [hlist] at he
      exact ⟨fault, (Except.error.inj he).symm, rfl⟩
    | ok list => simp [hlist, Scan.from, Except.map, Except.mapError] at he

/-- A list whose last character would begin a comment if the text behind the bracket followed it at once. -/
def slashedList : Text := "([a, l: \"]\" /]*/".toList

/-- The same list behind hashes and before a quote, with which they would make a string. -/
def hashedList : Text := "##[a, l: \"]\" /]\"".toList

theorem group_relocated_slashed : findClosing slashedList 1 = .ok 13 ∧
    hashedList.slice 2 15 = slashedList.slice 1 14 ∧ findClosing hashedList 2 = .ok 14 ∧
      ∃ list : ArgumentList, splitArguments slashedList 1 = .ok (list.shift 1) ∧
        list.items.map (·.label) = [none, some ['l']] ∧ splitArguments hashedList 2 = .ok (list.shift 2) := by
  have hc : findClosing slashedList 1 = .ok 13 := rfl
  have hsame : hashedList.slice 2 15 = slashedList.slice 1 14 := by decide +kernel
  have hread : splitArguments slashedList 1 =
      .ok ⟨1, 13, [⟨none, ⟨2, 3⟩, ⟨2, 3⟩, some 3⟩, ⟨some ['l'], ⟨5, 13⟩, ⟨8, 13⟩, none⟩]⟩ := rfl
  obtain ⟨hclosing, hlist, -⟩ := group_relocated hc hsame
  obtain ⟨list, hargs, hthere⟩ := hlist _ hread
  have hlabels : (list.shift 1).items.map (·.label) = [none, some ['l']] := hargs ▸ rfl
  rw [hargs] at hread
  rw [ArgumentList.shift, List.map_map] at hlabels
  exact ⟨hc, hsame, hclosing, list, hread, hlabels, hthere⟩

end PackageInstaller.Manifest
