import ParseMarkup.Json.Basic
import Mathlib.Data.List.Forall2

/-!
# Fields of a structure in a JSON value

There are two ways to say which JSON values hold the fields of a structure. One is that of a reader,
which looks for each field among the members of an object. The other is that of a writer who may
leave out what is absent, add members and reorder them. Both are said here for any fields, and they
come to the same.

The module introduces:

* `Json.Field`: a field of a structure, with what is taken for its value;
* `Json.FoundFrom`: that the fields of a structure are found in a value;
* `Json.SpellsFields`: that a value is made of the fields of a structure;
* `Json.Field.SameAs`: that two fields are taken from the same values.

The main statement: fields with different names are found in exactly the values that are made of
them (`Json.foundFrom_iff_spellsFields`).
-/

namespace ParseMarkup.Json

/-- A field of a structure, as it is in one value. -/
structure Field where
  /-- The name of the field. -/
  name : String
  /-- The JSON values that are taken for the value of the field. -/
  Takes : Json → Prop
  /-- Whether an object may do without it. -/
  Omissible : Prop

/-! ## Reading -/

/-- That a field is found among the members of an object: as the only one with its name, or as none
if it may be missing. -/
def Field.FoundIn (f : Field) (members : List (String × Json)) : Prop :=
  match values f.name members with
  | [] => f.Omissible
  | [j] => f.Takes j
  | _ => False

/-- That the fields of a structure are found in a JSON value: in an object, whatever other members
it has, or in an array of them in their order. -/
def FoundFrom (fields : List Field) : Json → Prop
  | obj members => ∀ f ∈ fields, f.FoundIn members
  | arr items => List.Forall₂ Field.Takes fields items
  | _ => False

/-! ## Writing -/

/-- The members of an object for the fields of a structure, in their order, without some of those
that may be missing. -/
inductive Kept : List Field → List (String × Json) → Prop
  | nil : Kept [] []
  | keep {f : Field} {fields : List Field} {j : Json} {members : List (String × Json)} :
    f.Takes j → Kept fields members → Kept (f :: fields) ((f.name, j) :: members)
  | leaveOut {f : Field} {fields : List Field} {members : List (String × Json)} :
    f.Omissible → Kept fields members → Kept (f :: fields) members

/-- What may stand for a structure. In an object the members stand in any order, and others may
stand between them. An array has all fields in their order. -/
inductive SpellsFields (fields : List Field) : Json → Prop
  | object {kept unknown members : List (String × Json)} :
    Kept fields kept → (∀ m ∈ unknown, m.1 ∉ fields.map Field.name) →
    members.Perm (kept ++ unknown) → SpellsFields fields (.obj members)
  | array {items : List Json} :
    List.Forall₂ Field.Takes fields items → SpellsFields fields (.arr items)

/-! ## The values of a name -/

/-- The values of a name in two runs of members are those in the first and those in the second. -/
theorem values_append (key : String) (members members' : List (String × Json)) :
    values key (members ++ members') = values key members ++ values key members' := by
  simp [values]

/-- In another order of the members the values of a name come in another order. -/
theorem values_perm (key : String) {members members' : List (String × Json)}
    (hperm : members.Perm members') : (values key members).Perm (values key members') :=
  (hperm.filter _).map _

/-- A name has no value where no member has that name. -/
theorem values_eq_nil {key : String} {members : List (String × Json)}
    (hnone : ∀ m ∈ members, m.1 ≠ key) : values key members = [] := by
  rw [values, List.filter_eq_nil_iff.2 fun m hm => by simpa using hnone m hm, List.map_nil]

/-- Members with another name make no difference to the values of a name. -/
theorem values_filter_ne {key other : String} (hne : key ≠ other)
    (members : List (String × Json)) :
    values key (members.filter fun m => ¬ m.1 = other) = values key members := by
  rw [values, values, List.filter_filter]
  congr 2
  funext m
  by_cases hkey : m.1 = key
  · simp [hkey, hne]
  · simp [hkey]

/-! ## What is written is found -/

/-- What is kept for a structure has only names of its fields. -/
theorem Kept.name_mem {fields : List Field} {kept : List (String × Json)}
    (hkept : Kept fields kept) : ∀ m ∈ kept, m.1 ∈ fields.map Field.name := by
  induction hkept with
  | nil => simp
  | keep _ _ ih =>
    rw [List.forall_mem_cons, List.map_cons]
    exact ⟨List.mem_cons_self, fun m hm => List.mem_cons_of_mem _ (ih m hm)⟩
  | leaveOut _ _ ih => exact fun m hm => List.mem_cons_of_mem _ (ih m hm)

/-- Each field is found in what is kept, if no two fields share a name. -/
theorem Kept.foundIn {fields : List Field} {kept : List (String × Json)} (hkept : Kept fields kept)
    (hnodup : (fields.map Field.name).Nodup) : ∀ f ∈ fields, f.FoundIn kept := by
  induction hkept with
  | nil => simp
  -- the member of the first field is none of a later one, and the other way round
  | @keep f fields j members htakes hkept ih =>
    obtain ⟨hfresh, hnodup⟩ := List.nodup_cons.1 hnodup
    rw [List.forall_mem_cons]
    constructor
    · have hothers : values f.name members = [] :=
        values_eq_nil fun m hm hname => hfresh (hname ▸ hkept.name_mem m hm)
      have hvalues : values f.name ((f.name, j) :: members) = [j] := by
        rw [← List.singleton_append, values_append, hothers]
        simp [values]
      rwa [Field.FoundIn, hvalues]
    · intro g hg
      have hne : f.name ≠ g.name := fun hname => hfresh (hname ▸ List.mem_map_of_mem hg)
      have hvalues : values g.name ((f.name, j) :: members) = values g.name members := by
        rw [← List.singleton_append, values_append, values_eq_nil (by simpa using hne),
          List.nil_append]
      rw [Field.FoundIn, hvalues]
      exact ih hnodup g hg
  | @leaveOut f fields members homissible hkept ih =>
    obtain ⟨hfresh, hnodup⟩ := List.nodup_cons.1 hnodup
    rw [List.forall_mem_cons]
    refine ⟨?_, ih hnodup⟩
    have hvalues : values f.name members = [] :=
      values_eq_nil fun m hm hname => hfresh (hname ▸ hkept.name_mem m hm)
    rwa [Field.FoundIn, hvalues]

/-- A field is found in the same way among reordered members and beside members with names of their
own. -/
theorem Field.FoundIn.of_perm {f : Field} {kept unknown members : List (String × Json)}
    (hfound : f.FoundIn kept) (hunknown : ∀ m ∈ unknown, m.1 ≠ f.name)
    (hperm : members.Perm (kept ++ unknown)) : f.FoundIn members := by
  have hvalues : (values f.name members).Perm (values f.name kept) := by
    have := values_perm f.name hperm
    rwa [values_append, values_eq_nil hunknown, List.append_nil] at this
  rw [FoundIn] at hfound ⊢
  -- a list of at most one value has no other order
  split at hfound
  · rename_i hnil
    rw [hnil, List.perm_nil] at hvalues
    rwa [hvalues]
  · rename_i hone
    rw [hone, List.perm_singleton] at hvalues
    rwa [hvalues]
  · exact hfound.elim

/-! ## What is found was written -/

/-- Where all fields of a structure are found, an object is made of members for them and others. -/
theorem exists_kept {fields : List Field} {members : List (String × Json)}
    (hnodup : (fields.map Field.name).Nodup) (hfound : ∀ f ∈ fields, f.FoundIn members) :
    ∃ kept unknown, Kept fields kept ∧ (∀ m ∈ unknown, m.1 ∉ fields.map Field.name) ∧
      members.Perm (kept ++ unknown) := by
  induction fields generalizing members with
  | nil => exact ⟨[], members, .nil, by simp, .refl _⟩
  | cons f fields ih =>
    obtain ⟨hfresh, hnodup⟩ := List.nodup_cons.1 hnodup
    obtain ⟨hf, hfields⟩ := List.forall_mem_cons.1 hfound
    -- the other fields are found among the members that are not named for the first
    have hrest : ∀ g ∈ fields, g.FoundIn (members.filter fun m => ¬ m.1 = f.name) := by
      intro g hg
      have hne : g.name ≠ f.name := fun hname => hfresh (hname ▸ List.mem_map_of_mem hg)
      rw [Field.FoundIn, values_filter_ne hne]
      exact hfields g hg
    obtain ⟨kept, unknown, hkept, hunknown, hperm⟩ := ih hnodup hrest
    have hnames : ∀ m ∈ unknown, m.1 ∉ (f :: fields).map Field.name := by
      intro m hm
      have hmem := hperm.mem_iff.2 (List.mem_append_right kept hm)
      have hne : m.1 ≠ f.name := by simpa using (List.mem_filter.1 hmem).2
      exact List.not_mem_cons_of_ne_of_not_mem hne (hunknown m hm)
    have hsplit := List.filter_append_perm (fun m => m.1 = f.name) members
    rw [Field.FoundIn, values] at hf
    rcases hown : members.filter (fun m => m.1 = f.name) with _ | ⟨m, _ | ⟨m', ms⟩⟩
    · rw [hown] at hf hsplit
      refine ⟨kept, unknown, .leaveOut hf hkept, hnames, hsplit.symm.trans ?_⟩
      simpa using hperm
    · rw [hown] at hf hsplit
      obtain ⟨name, j⟩ := m
      have hmem : (name, j) ∈ members.filter fun m => m.1 = f.name := hown ▸ List.mem_cons_self
      obtain rfl : name = f.name := of_decide_eq_true (List.mem_filter.1 hmem).2
      refine ⟨(f.name, j) :: kept, unknown, .keep hf hkept, hnames, hsplit.symm.trans ?_⟩
      simpa using hperm
    · rw [hown] at hf
      exact hf.elim

/-- The fields of a structure are found in what is made of them, and in nothing else. -/
theorem foundFrom_iff_spellsFields {fields : List Field} (hnodup : (fields.map Field.name).Nodup)
    {j : Json} : FoundFrom fields j ↔ SpellsFields fields j := by
  constructor
  · intro hfound
    cases j with
    | obj members =>
      obtain ⟨kept, unknown, hkept, hunknown, hperm⟩ := exists_kept hnodup hfound
      exact .object hkept hunknown hperm
    | arr items => exact .array hfound
    | _ => exact hfound.elim
  · rintro (⟨hkept, hunknown, hperm⟩ | hitems)
    · intro f hf
      refine (hkept.foundIn hnodup f hf).of_perm (fun m hm hname => ?_) hperm
      exact hunknown m hm (hname ▸ List.mem_map_of_mem hf)
    · exact hitems

/-- An object of the fields in order stands for the structure. -/
theorem SpellsFields.of_kept {fields : List Field} {members : List (String × Json)}
    (hkept : Kept fields members) : SpellsFields fields (.obj members) :=
  @SpellsFields.object fields members [] members hkept (by simp) (by simp)

/-! ## Fields that are taken alike -/

/-- That two fields have one name and are taken from the same values. -/
structure Field.SameAs (f g : Field) : Prop where
  /-- They have the same name. -/
  name_eq : f.name = g.name
  /-- They are taken from the same values. -/
  takes_iff : ∀ j, f.Takes j ↔ g.Takes j
  /-- One may be missing if the other may. -/
  omissible_iff : f.Omissible ↔ g.Omissible

/-- Such fields are found among the same members. -/
theorem Field.SameAs.foundIn_iff {f g : Field} (hsame : f.SameAs g)
    (members : List (String × Json)) : f.FoundIn members ↔ g.FoundIn members := by
  rw [FoundIn, FoundIn, hsame.name_eq]
  split
  · exact hsame.omissible_iff
  · exact hsame.takes_iff _
  · exact Iff.rfl

/-- Structures with such fields are found in the same values. -/
theorem foundFrom_congr {fields fields' : List Field}
    (hsame : List.Forall₂ Field.SameAs fields fields') {j : Json} :
    FoundFrom fields j ↔ FoundFrom fields' j := by
  cases j with
  | obj members =>
    induction hsame with
    | nil => exact Iff.rfl
    | cons hfirst _ ih =>
      change (∀ f ∈ _ :: _, _) ↔ ∀ f ∈ _ :: _, _
      rw [List.forall_mem_cons, List.forall_mem_cons, hfirst.foundIn_iff]
      exact and_congr_right fun _ => ih
  | arr items =>
    change List.Forall₂ _ _ _ ↔ List.Forall₂ _ _ _
    induction hsame generalizing items with
    | nil => rw [List.forall₂_nil_left_iff]
    | cons hfirst _ ih =>
      simp only [List.forall₂_cons_left_iff, hfirst.takes_iff, ih]
  | _ => exact Iff.rfl

end ParseMarkup.Json
