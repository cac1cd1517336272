import Mathlib.Data.List.Infix
import PackageInstaller.Install.Host

/-! What is where on a disk after something was written, removed or changed. A path leads to one place
only, which depends on its names alone, and whether it leads there on the folders on its way. -/

namespace PackageInstaller

def Change.place : Change → Place
  | .put place _ => place
  | .remove place => place

namespace Disk

variable {d d' : Disk} {here place q r r' : Place} {path : Path} {entry : Entry} {bytes : Bytes}
  {names : List Text}

lemma lookup_filter {α β : Type} [BEq α] [LawfulBEq α] (p : α → Bool) (l : List (α × β)) (k : α) :
    (l.filter fun e => p e.1).lookup k = if p k then l.lookup k else none := by
  induction l with
  | nil => simp
  | cons e l ih =>
    obtain ⟨k', v⟩ := e
    rw [List.filter_cons]
    by_cases hk : k = k'
    · subst hk
      split_ifs with hp
      · rw [List.lookup_cons_self, List.lookup_cons_self]
      · rw [ih, if_neg hp]
    · have hb : (k == k') = false := by simpa using hk
      have hl : ∀ l : List (α × β), List.lookup k ((k', v) :: l) = List.lookup k l := fun l => by
        rw [List.lookup_cons, hb]
      rw [hl]
      split_ifs with hp hq
      · rw [hl, ih, if_pos hq]
      · rw [hl, ih, if_neg hq]
      · rw [ih, if_pos ‹_›]
      · rw [ih, if_neg ‹_›]

lemma get?_put_of_ne (h : q ≠ place) : (d.put place entry).get? q = d.get? q := by
  have hb : (q == place) = false := by simpa using h
  rw [get?, put, List.lookup_cons, hb]
  simp only
  rw [lookup_filter fun p => decide (p ≠ place)]
  simp [h, get?]

lemma get?_erase (d : Disk) (place q : Place) :
    (d.erase place).get? q = if place <+: q then none else d.get? q := by
  rw [get?, erase, lookup_filter fun p => !place.isPrefixOf p]
  by_cases h : place <+: q
  · simp [h, List.isPrefixOf_iff_prefix.mpr h]
  · have hf : place.isPrefixOf q = false := by
      rw [← Bool.not_eq_true, List.isPrefixOf_iff_prefix]
      exact h
    simp [h, hf, get?]

lemma get?_ensureFolder (h : d.get? q = some entry) (place : Place) :
    (d.ensureFolder place).get? q = some entry := by
  rw [ensureFolder]
  split_ifs with hs
  · exact h
  · rw [get?_put_of_ne, h]
    rintro rfl
    rw [h] at hs
    exact hs rfl

lemma get?_ensureFoldersAbove (h : d.get? q = some entry) (place : Place) :
    (d.ensureFoldersAbove place).get? q = some entry := by
  rw [ensureFoldersAbove]
  generalize (List.range place.length).map place.take = places
  induction places generalizing d with
  | nil => exact h
  | cons place places ih => exact ih (get?_ensureFolder h place)

lemma get?_apply {change : Change} (h : d.get? q = some entry) (hc : ¬change.place <+: q) :
    (d.apply change).get? q = some entry := by
  cases change with
  | put place e =>
    rw [Change.place] at hc
    have he : (d.erase place).get? q = some entry := by
      rw [get?_erase, if_neg hc, h]
    rw [apply, get?_put_of_ne, get?_ensureFoldersAbove he]
    rintro rfl
    exact hc List.prefix_rfl
  | remove place =>
    rw [Change.place] at hc
    rw [apply, get?_erase, if_neg hc, h]

lemma get?_foldl_apply {changes : List Change} (h : d.get? q = some entry)
    (hc : ∀ change ∈ changes, ¬change.place <+: q) :
    (changes.foldl apply d).get? q = some entry := by
  induction changes generalizing d with
  | nil => exact h
  | cons change changes ih =>
    exact ih (get?_apply h (hc change List.mem_cons_self)) fun c hm => hc c (List.mem_cons_of_mem _ hm)

lemma get?_foldl_erase {places : List Place} (h : d.get? q = some entry) (hp : ∀ place ∈ places, ¬place <+: q) :
    (places.foldl erase d).get? q = some entry := by
  induction places generalizing d with
  | nil => exact h
  | cons place places ih =>
    refine ih ?_ fun p hm => hp p (List.mem_cons_of_mem _ hm)
    rw [get?_erase, if_neg (hp place List.mem_cons_self), h]

lemma walk_eq (h : d.walk place names = .ok r) (h' : d'.walk place names = .ok r') : r' = r := by
  -- a walk takes its next place from the names alone; the disk only decides whether it goes on
  induction names generalizing place with
  | nil => exact Except.ok.inj (h'.symm.trans h)
  | cons name rest ih =>
    rw [walk] at h h'
    split at h
    · simp at h
    · simp at h
    · split at h'
      · simp at h'
      · simp at h'
      · split_ifs at h h' <;> exact ih h h'

lemma walk_append {rest : List Text} (h : d.walk place (names ++ rest) = .ok r) :
    ∃ q, d.walk place names = .ok q ∧ d.walk q rest = .ok r := by
  induction names generalizing place with
  | nil => exact ⟨place, rfl, h⟩
  | cons name names ih =>
    rw [List.cons_append, walk] at h
    rw [walk]
    split at h
    · simp at h
    · simp at h
    · split_ifs at h ⊢ <;> exact ih h

lemma walk_concat {name : Text} (hname : name ≠ ['.', '.']) (h : d.walk place (names ++ [name]) = .ok r) :
    ∃ q, d.walk place names = .ok q ∧ r = q ++ [name] := by
  obtain ⟨q, hq, h⟩ := walk_append h
  refine ⟨q, hq, ?_⟩
  rw [walk] at h
  split at h
  · simp at h
  · simp at h
  · split_ifs at h
    exact (Except.ok.inj h).symm

lemma walk_of_locate (h : d.locate here path = .ok r) :
    d.walk (if path.root.isEmpty then here else []) path.names = .ok r := by
  rw [locate] at h
  split_ifs at h ⊢ <;> exact h

lemma locate_eq (h : d.locate here path = .ok r) (h' : d'.locate here path = .ok r') : r' = r := by
  rw [locate] at h h'
  split_ifs at h h' <;> exact walk_eq h h'

lemma walk_of_folders (hf : ∀ q, d.get? q = some .folder → d'.get? q = some .folder)
    (h : d.walk place names = .ok r) : d'.walk place names = .ok r := by
  induction names generalizing place with
  | nil => exact h
  | cons name rest ih =>
    rw [walk] at h ⊢
    split at h
    · simp at h
    · simp at h
    · rename_i hfolder
      rw [hf place hfolder]
      simp only
      split_ifs at h ⊢ <;> exact ih h

lemma locate_of_folders (hf : ∀ q, d.get? q = some .folder → d'.get? q = some .folder)
    (h : d.locate here path = .ok r) : d'.locate here path = .ok r := by
  rw [locate] at h ⊢
  split_ifs at h ⊢ <;> exact walk_of_folders hf h

lemma read_eq_ok : d.read here path = .ok bytes ↔
    ∃ place, d.locate here path = .ok place ∧ d.get? place = some (.file bytes) := by
  rw [read]
  cases hl : d.locate here path with
  | error fault => simp [bind, Except.bind]
  | ok place =>
    simp only [bind, Except.bind, Except.ok.injEq, exists_eq_left']
    cases hg : d.get? place with
    | none => simp
    | some entry => cases entry <;> simp

lemma write_eq_ok (h : d.write here path bytes = .ok d') :
    ∃ place, d.locate here path = .ok place ∧ d.get? place ≠ some .folder ∧
      d' = d.put place (.file bytes) := by
  rw [write] at h
  cases hl : d.locate here path with
  | error fault => simp [hl, bind, Except.bind] at h
  | ok place =>
    simp only [hl, bind, Except.bind] at h
    refine ⟨place, rfl, ?_⟩
    cases hg : d.get? place with
    | none =>
      rw [hg] at h
      exact ⟨by simp, (Except.ok.inj h).symm⟩
    | some entry =>
      rw [hg] at h
      cases entry with
      | folder => simp at h
      | file old => exact ⟨by simp, (Except.ok.inj h).symm⟩

lemma at?_of_ok (h : d.locate here path = .ok place) : d.at? here path = d.get? place := by
  rw [at?, h]

lemma at?_of_error {fault : FileFault} (h : d.locate here path = .error fault) : d.at? here path = none := by
  rw [at?, h]

lemma at?_erase (h : d.locate here path = .ok place) : (d.erase place).at? here path = none := by
  cases hl : (d.erase place).locate here path with
  | error fault => exact at?_of_error hl
  | ok q =>
    obtain rfl := locate_eq h hl
    rw [at?_of_ok hl, get?_erase, if_pos List.prefix_rfl]

end Disk

end PackageInstaller
