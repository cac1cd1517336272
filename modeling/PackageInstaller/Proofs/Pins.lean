import Mathlib.Data.Finset.Card
import Mathlib.Data.List.Forall2
import PackageInstaller.Install.Files
import PackageInstaller.Proofs.Addresses
import PackageInstaller.Proofs.Pieces

/-! What a lockfile pins. Its JSON is read as pins exactly if it lists them in one of the two layouts, whatever else
is there, and the new pins are counted by their keys. -/

namespace PackageInstaller

namespace Json

/-- An object has a value for a name: that of the last member of the name. -/
def Holds (members : List (Text × Json)) (name : Text) (value : Json) : Prop :=
  ∃ before after, members = before ++ (name, value) :: after ∧ ∀ member ∈ after, member.1 ≠ name

variable {members : List (Text × Json)} {name : Text} {value other : Json}

lemma lastMember?_eq_some : lastMember? members name = some value ↔ Holds members name value := by
  rw [lastMember?, List.lookup_eq_some_iff]
  constructor
  · rintro ⟨after, before, h, hafter⟩
    refine ⟨before.reverse, after.reverse, ?_, fun member hm heq => ?_⟩
    · rw [← List.reverse_reverse members, h]
      simp
    · have := hafter member (List.mem_reverse.mp hm)
      simp [heq] at this
  · rintro ⟨before, after, rfl, hafter⟩
    refine ⟨after.reverse, before.reverse, by simp, fun member hm => ?_⟩
    simpa using Ne.symm (hafter member (List.mem_reverse.mp hm))

lemma Holds.unique (h : Holds members name value) (h' : Holds members name other) : value = other := by
  rw [← lastMember?_eq_some] at h h'
  exact Option.some.inj (h.symm.trans h')

lemma asString?_eq_some {t : Text} : asString? value = some t ↔ value = .string t := by
  cases value <;> simp [asString?]

end Json

namespace Lockfile

open Manifest (bind_eq_ok)

/-- A JSON value lists entries as its pins: the first layout if it has an object of its own for them, else the later
one. -/
inductive Lists : Json → Layout → List Json → Prop
  | first {members inner : List (Text × Json)} {entries : List Json}
    (hobject : Json.Holds members objectMember (.object inner)) (hpins : Json.Holds inner pinsMember (.array entries)) :
    Lists (.object members) firstLayout entries
  | later {members : List (Text × Json)} {entries : List Json}
    (hobject : ∀ inner, ¬Json.Holds members objectMember (.object inner))
    (hpins : Json.Holds members pinsMember (.array entries)) : Lists (.object members) laterLayout entries

/-- An entry is a pin: an object with two strings, whatever else it has. -/
def IsPin (layout : Layout) (entry : Json) (pin : Pin) : Prop :=
  ∃ members, entry = .object members ∧ Json.Holds members layout.urlMember (.string pin.url) ∧
    Json.Holds members layout.nameMember (.string pin.name)

/-- A JSON value lists the pins in a layout, one entry for each. -/
def Renders (layout : Layout) (json : Json) (pins : List Pin) : Prop :=
  ∃ entries, Lists json layout entries ∧ List.Forall₂ (IsPin layout) entries pins

/-- A pin in a layout. -/
def entryOf (layout : Layout) (pin : Pin) : Json :=
  .object [(layout.nameMember, .string pin.name), (layout.urlMember, .string pin.url)]

/-- The pins in the first layout, beside a version. -/
def inFirst (version : Json) (pins : List Pin) : Json :=
  .object [(objectMember, .object [(pinsMember, .array (pins.map (entryOf firstLayout)))]), ("version".toList, version)]

/-- The pins in the later layout, beside a version. -/
def inLater (version : Json) (pins : List Pin) : Json :=
  .object [(pinsMember, .array (pins.map (entryOf laterLayout))), ("version".toList, version)]

variable {json : Json} {layout : Layout} {entry : Json} {entries : List Json} {pin : Pin} {pins : List Pin}
  {members : List (Text × Json)} {name value : Text}

lemma textMember?_eq_some : textMember? members name = some value ↔ Json.Holds members name (.string value) := by
  rw [textMember?, Option.bind_eq_some_iff]
  constructor
  · rintro ⟨found, hfound, hvalue⟩
    exact Json.lastMember?_eq_some.mp (Json.asString?_eq_some.mp hvalue ▸ hfound)
  · intro h
    exact ⟨_, Json.lastMember?_eq_some.mpr h, rfl⟩

lemma pinOf_eq_ok : pinOf layout entry = .ok pin ↔ IsPin layout entry pin := by
  constructor
  · intro h
    cases entry with
    | object members =>
      rw [pinOf] at h
      split at h
      · rename_i url name hurl hname
        obtain rfl := Except.ok.inj h
        exact ⟨members, rfl, textMember?_eq_some.mp hurl, textMember?_eq_some.mp hname⟩
      · simp at h
    | _ => simp [pinOf] at h
  · rintro ⟨members, rfl, hurl, hname⟩
    rw [pinOf, textMember?_eq_some.mpr hurl, textMember?_eq_some.mpr hname]

lemma mapM_pinOf_eq_ok : entries.mapM (pinOf layout) = .ok pins ↔ List.Forall₂ (IsPin layout) entries pins := by
  induction entries generalizing pins with
  | nil =>
    rw [List.forall₂_nil_left_iff]
    exact ⟨fun h => (Except.ok.inj h).symm, fun h => h ▸ rfl⟩
  | cons entry entries ih =>
    rw [List.mapM_cons, List.forall₂_cons_left_iff]
    constructor
    · intro h
      obtain ⟨pin, hpin, h⟩ := bind_eq_ok.mp h
      obtain ⟨rest, hrest, h⟩ := bind_eq_ok.mp h
      exact ⟨pin, rest, pinOf_eq_ok.mp hpin, ih.mp hrest, (Except.ok.inj h).symm⟩
    · rintro ⟨pin, rest, hpin, hrest, rfl⟩
      rw [pinOf_eq_ok.mpr hpin, ih.mpr hrest]
      rfl

lemma pinsOf_object (members : List (Text × Json)) : pinsOf (.object members) =
    match Json.lastMember? (layoutOf members).2 pinsMember with
    | some (.array entries) => entries.mapM (pinOf (layoutOf members).1)
    | _ => .error .noPins := rfl

lemma lists_object {members : List (Text × Json)} : Lists (.object members) layout entries ↔
    (layoutOf members).1 = layout ∧ Json.Holds (layoutOf members).2 pinsMember (.array entries) := by
  rw [layoutOf]
  split
  · rename_i inner hinner
    rw [Json.lastMember?_eq_some] at hinner
    constructor
    · intro h
      cases h with
      | first hobject hpins =>
        obtain rfl := Json.object.inj (hobject.unique hinner)
        exact ⟨rfl, hpins⟩
      | later hobject hpins => exact absurd hinner (hobject _)
    · rintro ⟨rfl, hpins⟩
      exact .first hinner hpins
  · rename_i hno
    constructor
    · intro h
      cases h with
      | first hobject hpins => exact absurd (Json.lastMember?_eq_some.mpr hobject) (hno _)
      | later hobject hpins => exact ⟨rfl, hpins⟩
    · rintro ⟨rfl, hpins⟩
      exact .later (fun inner hinner => hno inner (Json.lastMember?_eq_some.mpr hinner)) hpins

lemma pinsOf_eq_ok : pinsOf json = .ok pins ↔ ∃ layout, Renders layout json pins := by
  cases json with
  | object members =>
    rw [pinsOf_object]
    simp only [Renders, lists_object]
    constructor
    · intro h
      split at h
      · rename_i entries hentries
        exact ⟨_, entries, ⟨rfl, Json.lastMember?_eq_some.mp hentries⟩, mapM_pinOf_eq_ok.mp h⟩
      · simp at h
    · rintro ⟨layout, entries, ⟨rfl, hentries⟩, hpins⟩
      rw [Json.lastMember?_eq_some.mpr hentries]
      exact mapM_pinOf_eq_ok.mpr hpins
  | _ =>
    constructor
    · simp [pinsOf]
    · rintro ⟨layout, entries, hlists, -⟩
      cases hlists

lemma isPin_entryOf (hnames : layout.nameMember ≠ layout.urlMember) (pin : Pin) :
    IsPin layout (entryOf layout pin) pin := by
  refine ⟨_, rfl, ⟨[_], [], rfl, by simp⟩, ⟨[], [_], rfl, ?_⟩⟩
  simpa using hnames.symm

lemma isPin_entries (hnames : layout.nameMember ≠ layout.urlMember) (pins : List Pin) :
    List.Forall₂ (IsPin layout) (pins.map (entryOf layout)) pins := by
  rw [List.forall₂_map_left_iff, List.forall₂_same]
  exact fun pin _ => isPin_entryOf hnames pin

lemma renders_inFirst (version : Json) (pins : List Pin) : Renders firstLayout (inFirst version pins) pins := by
  refine ⟨_, .first ⟨[], [_], rfl, ?_⟩ ⟨[], [], rfl, by simp⟩, isPin_entries (by decide) pins⟩
  simp only [List.mem_singleton, forall_eq]
  decide

lemma renders_inLater (version : Json) (pins : List Pin) : Renders laterLayout (inLater version pins) pins := by
  refine ⟨_, .later (fun inner h => ?_) ⟨[], [_], rfl, ?_⟩, isPin_entries (by decide) pins⟩
  · rw [← Json.lastMember?_eq_some] at h
    cases h
  · simp only [List.mem_singleton, forall_eq]
    decide

lemma length_newKeys (known keys : List Text) :
    (newKeys known keys).length = (keys.toFinset \ known.toFinset).card := by
  induction keys generalizing known with
  | nil => simp [newKeys]
  | cons key keys ih =>
    rw [newKeys]
    by_cases hk : known.elem key
    · have hmem : key ∈ known.toFinset := by simpa using hk
      rw [if_pos hk, ih, List.toFinset_cons, Finset.insert_sdiff_of_mem _ hmem]
    · have hmem : key ∉ known.toFinset := by simpa using hk
      have herase : insert key ((keys.toFinset \ known.toFinset).erase key) =
          insert key (keys.toFinset \ known.toFinset) := by
        ext k
        by_cases hk : k = key <;> simp [hk]
      rw [if_neg hk, List.length_cons, ih, List.toFinset_cons, List.toFinset_cons, Finset.sdiff_insert,
        Finset.insert_sdiff_of_notMem _ hmem, ← herase, Finset.card_insert_of_notMem (Finset.notMem_erase _ _)]

/-- The packages that pins pin. -/
def keys (pins : List Pin) : Finset Text := (pins.map Pin.key).toFinset

lemma keys_cons (pin : Pin) (pins : List Pin) : keys (pin :: pins) = insert pin.key (keys pins) := by
  rw [keys, keys, List.map_cons, List.toFinset_cons]

lemma countNew_eq_card (before after : List Pin) : countNew before after = (keys after \ keys before).card :=
  length_newKeys _ _

lemma countNew_eq_zero {before after : List Pin} (h : ∀ pin ∈ after, ∃ known ∈ before, known.key = pin.key) :
    countNew before after = 0 := by
  rw [countNew_eq_card, Finset.card_eq_zero, Finset.sdiff_eq_empty_iff_subset]
  intro key hkey
  obtain ⟨pin, hpin, rfl⟩ := List.mem_map.mp (List.mem_toFinset.mp hkey)
  obtain ⟨known, hknown, heq⟩ := h pin hpin
  exact List.mem_toFinset.mpr (heq ▸ List.mem_map_of_mem hknown)

lemma countNew_triangle (before between after : List Pin) :
    countNew before after ≤ countNew before between + countNew between after := by
  simp only [countNew_eq_card]
  calc (keys after \ keys before).card
      ≤ (keys after \ keys between ∪ keys between \ keys before).card := Finset.card_le_card (sdiff_triangle _ _ _)
    _ ≤ (keys after \ keys between).card + (keys between \ keys before).card := Finset.card_union_le _ _
    _ = (keys between \ keys before).card + (keys after \ keys between).card := Nat.add_comm _ _

lemma exists_pins : (∃ pins, pinsOf json = .ok pins) ↔
    ∃ layout entries, Lists json layout entries ∧ ∀ entry ∈ entries, ∃ pin, IsPin layout entry pin := by
  simp only [pinsOf_eq_ok, Renders, ← exists_forall₂]
  constructor
  · rintro ⟨pins, layout, entries, hlists, hpins⟩
    exact ⟨layout, entries, hlists, pins, hpins⟩
  · rintro ⟨layout, entries, hlists, pins, hpins⟩
    exact ⟨pins, layout, entries, hlists, hpins⟩

lemma pinsOfText_read {t : Text} (ht : Json.readFile t = .ok json) :
    (∃ pins, pinsOf json = .ok pins ∧ pinsOfText t = .ok pins) ∨
      ∃ fault, pinsOf json = .error fault ∧ pinsOfText t = .error (.lockfile (.layout fault)) := by
  have htext : pinsOfText t = (pinsOf json).mapError fun fault => .lockfile (.layout fault) := by
    rw [pinsOfText, ht]
  rw [htext]
  cases pinsOf json with
  | ok pins => exact .inl ⟨pins, rfl, rfl⟩
  | error fault => exact .inr ⟨fault, rfl, rfl⟩

/-- JSON is read as pins exactly if it lists them in one of the layouts, whatever else is there, and is an error of
the lockfile otherwise; so both layouts of the same pins are read alike. New pins are the packages that were not pinned
before: none if all that was pinned is pinned again, in whatever order, how often and however spelled, and at most
those that came in two steps. -/
theorem pins_read_and_counted :
    (∀ json pins, pinsOf json = .ok pins ↔ ∃ layout, Renders layout json pins) ∧
    (∀ json, (∃ pins, pinsOf json = .ok pins) ↔
      ∃ layout entries, Lists json layout entries ∧ ∀ entry ∈ entries, ∃ pin, IsPin layout entry pin) ∧
    (∀ t json, Json.readFile t = .ok json → (∃ pins, pinsOf json = .ok pins ∧ pinsOfText t = .ok pins) ∨
      ∃ fault, pinsOf json = .error fault ∧ pinsOfText t = .error (.lockfile (.layout fault))) ∧
    (∀ layout layout' json json' pins, Renders layout json pins → Renders layout' json' pins →
      pinsOf json = pinsOf json') ∧
    (∀ version version' pins, Renders firstLayout (inFirst version pins) pins ∧
      Renders laterLayout (inLater version' pins) pins) ∧
    (∀ before after, countNew before after = (keys after \ keys before).card) ∧
    (∀ before after, (∀ pin ∈ after, ∃ known ∈ before, Repository.Respells known.url pin.url) →
      countNew before after = 0) ∧
    ∀ before between after, countNew before after ≤ countNew before between + countNew between after := by
  refine ⟨fun _ _ => pinsOf_eq_ok, fun _ => exists_pins, fun _ _ => pinsOfText_read, ?_,
    fun version version' pins => ⟨renders_inFirst version pins, renders_inLater version' pins⟩, countNew_eq_card, ?_,
    countNew_triangle⟩
  · intro layout layout' json json' pins h h'
    rw [pinsOf_eq_ok.mpr ⟨layout, h⟩, pinsOf_eq_ok.mpr ⟨layout', h'⟩]
  · intro before after h
    refine countNew_eq_zero fun pin hpin => ?_
    obtain ⟨known, hknown, hrespells⟩ := h pin hpin
    exact ⟨known, hknown, hrespells.canonicalUrl⟩

theorem recased_pin_not_new :
    countNew [⟨"https://github.com/vapor/console".toList, "console".toList⟩]
      [⟨"https://github.com/Vapor/console.git/".toList, "console".toList⟩] = 0 := by
  obtain ⟨-, -, -, -, -, -, hzero, -⟩ := pins_read_and_counted
  refine hzero _ _ ?_
  simp only [List.mem_singleton, forall_eq, exists_eq_left]
  refine .inr ⟨"https://github.com/vapor/console".toList, ⟨by decide, by decide, by decide, by decide⟩,
    Repository.spells_self _, ?_⟩
  have hspelled := @Repository.Spells.mk "https://github.com/vapor/console".toList []
    "https://github.com/Vapor/console".toList ".git".toList ['/'] [] (by simp) (by decide) (.inr (by decide)) (by simp)
    (by simp)
  exact hspelled

end Lockfile

end PackageInstaller
