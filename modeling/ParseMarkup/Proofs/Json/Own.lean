import ParseMarkup.Json.Tree
import ParseMarkup.Proofs.Json.Declared

/-!
# The codecs of this library

The stored types have codecs of their own here, each written out by hand. They follow the rules for
what the types declare, so whatever holds of derived codecs holds of them.

The module introduces:

* `Json.Field.Finds`: that a field is taken from what was found for it, if anything was;
* `Codecs.own`: the codecs that stored values are written and read with here.

The main statement: these codecs are lawful (`Codecs.own_lawful`).
-/

namespace ParseMarkup

namespace Json

/-! ## Looking up fields -/

/-- The first member with a name has the first value of that name. -/
theorem member?_eq_head? (key : String) (members : List (String × Json)) :
    member? key members = (values key members).head? := by
  induction members with
  | nil => rfl
  | cons m rest ih =>
    obtain ⟨name, j⟩ := m
    rw [member?]
    by_cases hname : name = key
    · simp [values, hname]
    · rw [if_neg hname, ih]
      simp [values, hname]

/-- That a field is taken from the value that was found for it, or may be missing where none was. -/
def Field.Finds (f : Field) : Option Json → Prop
  | some j => f.Takes j
  | none => f.Omissible

/-- A field is found in an object where its name does not stand twice and what stands first is taken
for it. -/
theorem Field.foundIn_iff {f : Field} {members : List (String × Json)} :
    f.FoundIn members ↔
      (values f.name members).length ≤ 1 ∧ f.Finds (member? f.name members) := by
  rw [FoundIn, member?_eq_head?]
  rcases values f.name members with _ | ⟨j, _ | ⟨j', js⟩⟩
  · simp [Finds]
  · simp [Finds]
  · simp

/-- The fields of a structure are found where looking them up gives a value for each. -/
theorem foundFrom_iff_fields? {fields : List Field} {j : Json} :
    FoundFrom fields j ↔ ∃ found, j.fields? (fields.map Field.name) = some found ∧
      List.Forall₂ Field.Finds fields found := by
  have hmap : ∀ members : List (String × Json),
      List.Forall₂ Field.Finds fields
          ((fields.map Field.name).map fun name => member? name members) ↔
        ∀ f ∈ fields, f.Finds (member? f.name members) := by
    intro members
    rw [List.map_map, List.forall₂_map_right_iff, List.forall₂_same]
    exact Iff.rfl
  cases j with
  | obj members =>
    -- a name may not come twice, and each field finds the first member of its name
    have hdistinct : distinct (fields.map Field.name) members = true ↔
        ∀ f ∈ fields, (values f.name members).length ≤ 1 := by
      simp [distinct]
    change (∀ f ∈ fields, f.FoundIn members) ↔ _
    -- what is left is propositional: `fields?` gives something just if the names are distinct
    simp only [fields?, Field.foundIn_iff, forall₂_and, ← hdistinct, ← hmap]
    grind
  | arr items =>
    change List.Forall₂ Field.Takes fields items ↔ _
    -- an array has an item for every field, so none is missing
    have hitems : List.Forall₂ Field.Takes fields items ↔
        List.Forall₂ Field.Finds fields (items.map some) := by
      rw [List.forall₂_map_right_iff]
      exact Iff.rfl
    rw [hitems, fields?, List.length_map]
    constructor
    · intro hfound
      refine ⟨_, if_pos ?_, hfound⟩
      simpa using hfound.length_eq.symm
    · rintro ⟨found, hfields, hfound⟩
      split at hfields
      · obtain rfl := Option.some.inj hfields
        exact hfound
      · cases hfields
  | _ => simp [FoundFrom, fields?]

end Json

/-! ## The codecs -/

/-- The codecs of this library. -/
def Codecs.own : Codecs where
  text := inferInstance
  word32 := inferInstance
  word64 := inferInstance
  int32 := inferInstance
  int64 := inferInstance
  option c := ⟨@Codec.encodeOption _ c, fun j => @Codec.decodeOption _ c (some j)⟩
  list c :=
    { encode xs := .arr (xs.map c.encode)
      decode
        | .arr items => items.mapM c.decode
        | _ => none }
  location := inferInstance
  terminal l v := ⟨@Terminal.encode _ _ l v, @Terminal.decode _ _ l v⟩
  error l := ⟨@ErrorNode.encode _ l, @ErrorNode.decode _ l⟩
  production l v := ⟨@Production.encode _ _ l v, @Production.decode _ _ l v⟩
  node l v := ⟨@Node.encode _ _ l v, @Node.decode _ _ l v⟩

open Json

namespace Codecs

/-! ### Texts and integers -/

/-- A text is a string. -/
theorem own_text : own.text.Scalar .str where
  encode_eq _ := rfl
  decode_iff {j s} := by
    cases j with
    | str s' =>
      change some s' = some s ↔ _
      simp
    | _ =>
      change none = some s ↔ _
      simp

/-- A type of integers from `lo` to `hi` is read from the integers in that range. -/
theorem scalar_of_intBetween? {α : Type} {c : Codec α} {lo hi : Int} {toInt : α → Int}
    {ofInt : Int → α} (hencode : ∀ a, c.encode a = .int (toInt a))
    (hdecode : ∀ j, c.decode j = (j.intBetween? lo hi).map ofInt)
    (hbounds : ∀ a, lo ≤ toInt a ∧ toInt a ≤ hi) (hofInt : ∀ a, ofInt (toInt a) = a)
    (htoInt : ∀ i, lo ≤ i → i ≤ hi → toInt (ofInt i) = i) :
    c.Scalar fun a => .int (toInt a) where
  encode_eq := hencode
  decode_iff {j a} := by
    rw [hdecode]
    constructor
    · intro h
      obtain ⟨i, hi, rfl⟩ := Option.map_eq_some_iff.1 h
      cases j with
      | int i' =>
        rw [intBetween?] at hi
        split at hi
        · rename_i hrange
          obtain rfl := Option.some.inj hi
          rw [htoInt i' hrange.1 hrange.2]
        · cases hi
      | _ => cases hi
    · rintro rfl
      rw [intBetween?, if_pos (hbounds a), Option.map_some, hofInt]

/-- An integer of 32 bits without a sign is a number in its range. -/
theorem own_word32 : own.word32.Scalar fun n => .int n.toNat := by
  refine scalar_of_intBetween? (fun _ => rfl) (fun _ => rfl) (fun n => ?_) (fun n => by simp)
    (fun i hlo hhi => ?_)
  · have := n.toNat_lt_size
    simp only [UInt32.size] at *
    omega
  · simp only [UInt32.size] at hhi
    rw [UInt32.toNat_ofNat_of_lt' (by simp only [UInt32.size]; omega)]
    omega

/-- An integer of 64 bits without a sign is a number in its range. -/
theorem own_word64 : own.word64.Scalar fun n => .int n.toNat := by
  refine scalar_of_intBetween? (fun _ => rfl) (fun _ => rfl) (fun n => ?_) (fun n => by simp)
    (fun i hlo hhi => ?_)
  · have := n.toNat_lt_size
    simp only [UInt64.size] at *
    omega
  · simp only [UInt64.size] at hhi
    rw [UInt64.toNat_ofNat_of_lt' (by simp only [UInt64.size]; omega)]
    omega

/-- An integer of 32 bits with a sign is a number in its range. -/
theorem own_int32 : own.int32.Scalar fun i => .int i.toInt :=
  scalar_of_intBetween? (fun _ => rfl) (fun _ => rfl)
    (fun i => ⟨i.minValue_le_toInt, i.toInt_le⟩) Int32.ofInt_toInt
    (fun _ hlo hhi => Int32.toInt_ofInt_of_le (Int.le_trans (by decide) hlo)
      (Int.lt_of_le_of_lt hhi (by decide)))

/-- An integer of 64 bits with a sign is a number in its range. -/
theorem own_int64 : own.int64.Scalar fun i => .int i.toInt :=
  scalar_of_intBetween? (fun _ => rfl) (fun _ => rfl)
    (fun i => ⟨i.minValue_le_toInt, i.toInt_le⟩) Int64.ofInt_toInt
    (fun _ hlo hhi => Int64.toInt_ofInt_of_le (Int.le_trans (by decide) hlo)
      (Int.lt_of_le_of_lt hhi (by decide)))

/-! ### Structures -/

/-- A member that must be there is found where there is one that is read as its value. -/
theorem finds_member {α : Type} {c : Codec α} {name : String} {a : α} {o : Option Json} :
    (c.member name a).Finds o ↔ ∃ j, o = some j ∧ c.decode j = some a := by
  cases o with
  | none => simp [Codec.member, Field.Finds]
  | some j => simp [Codec.member, Field.Finds]

/-- An optional member is found where what is there, or its absence, is read as its value. -/
theorem finds_optionalMember {α : Type} {c : Codec α} {name : String} {a? : Option α}
    {o : Option Json} :
    ((own.option c).optionalMember name a?).Finds o ↔ @Codec.decodeOption _ c o = some a? := by
  cases o with
  | none =>
    change a? = none ↔ some none = some a?
    rw [Option.some.injEq, eq_comm]
  | some j => exact Iff.rfl

/-- An optional value is `null` if it is absent. -/
theorem own_option {α : Type} (c : Codec α) : (own.option c).Optional c where
  encode_none := rfl
  encode_some _ := rfl
  decode_null := rfl
  decode_of_ne_null {j} hnull := by
    change @Codec.decodeOption _ c (some j) = _
    cases j with
    | null => exact absurd rfl hnull
    | _ => rfl

/-- Reading the items of an array one by one succeeds where each is read. -/
theorem mapM_eq_some_iff {α β : Type} {f : α → Option β} {xs : List α} {ys : List β} :
    xs.mapM f = some ys ↔ List.Forall₂ (fun y x => f x = some y) ys xs := by
  induction xs generalizing ys with
  | nil => simp [eq_comm]
  | cons x xs ih =>
    rw [List.mapM_cons, List.forall₂_cons_right_iff]
    simp only [Option.bind_eq_bind, Option.bind_eq_some_iff, ih, Option.pure_def,
      Option.some.injEq]
    grind

/-- A list is an array of what its items are written as. -/
theorem own_list {α : Type} (c : Codec α) : (own.list c).Sequence c where
  encode_eq _ := rfl
  decode_iff {j xs} := by
    cases j with
    | arr items =>
      change items.mapM c.decode = some xs ↔ _
      simp [mapM_eq_some_iff]
    | _ =>
      change none = some xs ↔ _
      simp

/-- A location is a structure with its fields. -/
theorem own_location : own.location.Structure (SourceLocation.members own) where
  encode_eq _ := rfl
  decode_iff {j loc} := by
    rw [foundFrom_iff_fields?]
    change SourceLocation.decode j = some loc ↔
      ∃ found, j.fields? SourceLocation.fieldNames = some found ∧ List.Forall₂ _ _ found
    rw [SourceLocation.decode]
    constructor
    · intro hdecode
      split at hdecode
      · rename_i unit line column offset hfound
        simp only [Option.bind_eq_bind, Option.bind_eq_some_iff] at hdecode
        obtain ⟨_, hunit, _, hline, _, hcolumn, _, hoffset, hloc⟩ := hdecode
        cases hloc
        refine ⟨_, hfound, .cons (finds_optionalMember.2 hunit) ?_⟩
        exact .cons (finds_member.2 ⟨_, rfl, hline⟩) <|
          .cons (finds_member.2 ⟨_, rfl, hcolumn⟩) <|
          .cons (finds_member.2 ⟨_, rfl, hoffset⟩) .nil
      · cases hdecode
    · rintro ⟨found, hfound, hfinds⟩
      -- all but the unit have to be there
      obtain _ | ⟨hunit, _ | ⟨hline, _ | ⟨hcolumn, _ | ⟨hoffset, _ | _⟩⟩⟩⟩ := hfinds
      obtain ⟨line, rfl, hreadLine⟩ := finds_member.1 hline
      obtain ⟨column, rfl, hreadColumn⟩ := finds_member.1 hcolumn
      obtain ⟨offset, rfl, hreadOffset⟩ := finds_member.1 hoffset
      have hreadUnit := finds_optionalMember.1 hunit
      change (Codec.decodeOption _ : Option (Option String)) = _ at hreadUnit
      change (Codec.decode _ : Option UInt64) = _ at hreadLine hreadColumn hreadOffset
      simp [hfound, hreadUnit, hreadLine, hreadColumn, hreadOffset]

variable {L V : Type} (l : Codec L) (v : Codec V)

/-- A token is a structure with its fields. -/
theorem own_terminal : (own.terminal l v).Structure (Terminal.members own l v) where
  encode_eq _ := rfl
  decode_iff {j t} := by
    rw [foundFrom_iff_fields?]
    change @Terminal.decode _ _ l v j = some t ↔
      ∃ found, j.fields? Terminal.fieldNames = some found ∧ List.Forall₂ _ _ found
    rw [Terminal.decode]
    constructor
    · intro hdecode
      split at hdecode
      · rename_i left tag value right hfound
        simp only [Option.bind_eq_bind, Option.bind_eq_some_iff] at hdecode
        obtain ⟨_, hleft, _, htag, _, hvalue, _, hright, ht⟩ := hdecode
        cases ht
        refine ⟨_, hfound, .cons (finds_member.2 ⟨_, rfl, hleft⟩) ?_⟩
        exact .cons (finds_member.2 ⟨_, rfl, htag⟩) <| .cons (finds_optionalMember.2 hvalue) <|
          .cons (finds_member.2 ⟨_, rfl, hright⟩) .nil
      · cases hdecode
    · rintro ⟨found, hfound, hfinds⟩
      obtain _ | ⟨hleft, _ | ⟨htag, _ | ⟨hvalue, _ | ⟨hright, _ | _⟩⟩⟩⟩ := hfinds
      obtain ⟨left, rfl, hreadLeft⟩ := finds_member.1 hleft
      obtain ⟨tag, rfl, hreadTag⟩ := finds_member.1 htag
      obtain ⟨right, rfl, hreadRight⟩ := finds_member.1 hright
      have hreadValue := finds_optionalMember.1 hvalue
      change (Codec.decode _ : Option String) = _ at hreadTag
      simp [hfound, hreadLeft, hreadTag, hreadValue, hreadRight]

/-- An error leaf is a structure with its fields. -/
theorem own_error : (own.error l).Structure (ErrorNode.members l) where
  encode_eq _ := rfl
  decode_iff {j e} := by
    rw [foundFrom_iff_fields?]
    change @ErrorNode.decode _ l j = some e ↔
      ∃ found, j.fields? ErrorNode.fieldNames = some found ∧ List.Forall₂ _ _ found
    rw [ErrorNode.decode]
    constructor
    · intro hdecode
      split at hdecode
      · rename_i left right hfound
        simp only [Option.bind_eq_bind, Option.bind_eq_some_iff] at hdecode
        obtain ⟨_, hleft, _, hright, he⟩ := hdecode
        cases he
        refine ⟨_, hfound, .cons (finds_member.2 ⟨_, rfl, hleft⟩) ?_⟩
        exact .cons (finds_member.2 ⟨_, rfl, hright⟩) .nil
      · cases hdecode
    · rintro ⟨found, hfound, hfinds⟩
      obtain _ | ⟨hleft, _ | ⟨hright, _ | _⟩⟩ := hfinds
      obtain ⟨left, rfl, hreadLeft⟩ := finds_member.1 hleft
      obtain ⟨right, rfl, hreadRight⟩ := finds_member.1 hright
      simp [hfound, hreadLeft, hreadRight]

/-! ### Productions and nodes -/

/-- Several nodes are written one by one. -/
theorem encodeAll_eq_map (cs : List (Node L V)) :
    @Node.encodeAll _ _ l v cs = cs.map (own.node l v).encode := by
  induction cs with
  | nil => rw [Node.encodeAll, List.map_nil]
  | cons d cs ih =>
    rw [Node.encodeAll, ih, List.map_cons]
    rfl

/-- Several nodes are read one by one. -/
theorem decodeAll_eq_mapM (js : List Json) :
    @Node.decodeAll _ _ l v js = js.mapM (own.node l v).decode := by
  induction js with
  | nil => rw [Node.decodeAll, List.mapM_nil, Option.pure_def]
  | cons j js ih =>
    rw [Node.decodeAll, ih, List.mapM_cons]
    rfl

/-- The nodes of an array are read as a list of nodes. -/
theorem decodeList_eq (j : Json) :
    @Node.decodeList _ _ l v j = (own.list (own.node l v)).decode j := by
  cases j with
  | arr items =>
    rw [Node.decodeList, decodeAll_eq_mapM]
    rfl
  | _ =>
    rw [Node.decodeList]
    · rfl
    · nofun

/-- The children are read from the member with their name. -/
theorem decodeChildren_eq (members : List (String × Json)) :
    @Node.decodeChildren _ _ l v members =
      (member? "children" members).bind (own.list (own.node l v)).decode := by
  induction members with
  | nil => rw [Node.decodeChildren, member?, Option.bind_none]
  | cons m rest ih =>
    obtain ⟨name, j⟩ := m
    rw [Node.decodeChildren, member?]
    split
    · rw [decodeList_eq, Option.bind_some]
    · exact ih

/-- A production is read from its three fields, wherever they are found. -/
theorem decode_production_eq (j : Json) :
    (own.production l v).decode j =
      match j.fields? Production.fieldNames with
      | some [some tag, some variant, some children] => do
        let tag ← own.text.decode tag
        let variant ← own.int32.decode variant
        let children ← (own.list (own.node l v)).decode children
        return { tag, variant, children }
      | _ => none := by
  change @Production.decode _ _ l v j = _
  cases j with
  | obj members =>
    rw [Production.decode, fields?]
    split
    · -- a field that is missing makes both sides fail, whichever is looked at first
      rw [decodeChildren_eq, Production.fieldNames, List.map_cons, List.map_cons, List.map_cons,
        List.map_nil]
      cases member? "tag" members with
      | none => rfl
      | some tag =>
        cases member? "variant" members with
        | none =>
          simp
        | some variant =>
          cases member? "children" members with
          | none => simp
          | some children => rfl
    · rfl
  | arr items =>
    rw [fields?]
    by_cases hlength : items.length = Production.fieldNames.length
    · obtain ⟨tag, variant, children, rfl⟩ := List.length_eq_three.1 hlength
      rw [if_pos hlength, Production.decode, decodeList_eq]
      rfl
    · rw [if_neg hlength, Production.decode]
      · nofun
      · intro tag variant children hitems
        cases hitems
        exact hlength rfl
  | _ => rfl

/-- A production is a structure with its fields. -/
theorem own_production : (own.production l v).Structure (Production.members own l v) where
  encode_eq n := by
    change @Production.encode _ _ l v n = _
    rw [Production.encode, encodeAll_eq_map]
    rfl
  decode_iff {j n} := by
    rw [foundFrom_iff_fields?, decode_production_eq]
    change _ ↔ ∃ found, j.fields? Production.fieldNames = some found ∧ List.Forall₂ _ _ found
    constructor
    · intro hdecode
      split at hdecode
      · rename_i tag variant children hfound
        simp only [Option.bind_eq_bind, Option.bind_eq_some_iff] at hdecode
        obtain ⟨_, htag, _, hvariant, _, hchildren, hn⟩ := hdecode
        cases hn
        refine ⟨_, hfound, .cons (finds_member.2 ⟨_, rfl, htag⟩) ?_⟩
        exact .cons (finds_member.2 ⟨_, rfl, hvariant⟩) <|
          .cons (finds_member.2 ⟨_, rfl, hchildren⟩) .nil
      · cases hdecode
    · rintro ⟨found, hfound, hfinds⟩
      obtain _ | ⟨htag, _ | ⟨hvariant, _ | ⟨hchildren, _ | _⟩⟩⟩ := hfinds
      obtain ⟨tag, rfl, hreadTag⟩ := finds_member.1 htag
      obtain ⟨variant, rfl, hreadVariant⟩ := finds_member.1 hvariant
      obtain ⟨children, rfl, hreadChildren⟩ := finds_member.1 hchildren
      simp [hfound, hreadTag, hreadVariant, hreadChildren]

/-- A node is tagged with its kind. -/
theorem own_node : (own.node l v).Tagged (Node.kind own l v) where
  encode_eq t := by
    change @Node.encode _ _ l v t = _
    cases t with
    | nonterminal n =>
      obtain ⟨tag, variant, cs⟩ := n
      rw [Node.encode]
      rfl
    | _ =>
      rw [Node.encode]
      rfl
  decode_iff {j t} := by
    change @Node.decode _ _ l v j = some t ↔ _
    constructor
    · intro hdecode
      rw [Node.decode.eq_def] at hdecode
      split at hdecode
      · rename_i kind body
        split at hdecode
        · rename_i hkind
          obtain ⟨t, ht, rfl⟩ := Option.map_eq_some_iff.1 hdecode
          exact ⟨body, by rw [hkind]; rfl, ht⟩
        · split at hdecode
          · rename_i hkind
            obtain ⟨e, he, rfl⟩ := Option.map_eq_some_iff.1 hdecode
            exact ⟨body, by rw [hkind]; rfl, he⟩
          · split at hdecode
            · rename_i hkind
              obtain ⟨n, hn, rfl⟩ := Option.map_eq_some_iff.1 hdecode
              exact ⟨body, by rw [hkind]; rfl, hn⟩
            · cases hdecode
      · cases hdecode
    · -- the tag decides which kind of node is read
      rintro ⟨body, rfl, htakes⟩
      cases t with
      | terminal t =>
        have hread : @Terminal.decode _ _ l v body = some t := htakes
        change @Node.decode _ _ l v (.obj [("Terminal", body)]) = _
        rw [Node.decode, if_pos rfl, hread, Option.map_some]
      | error e =>
        have hread : @ErrorNode.decode _ l body = some e := htakes
        change @Node.decode _ _ l v (.obj [("Error", body)]) = _
        rw [Node.decode, if_neg (by decide), if_pos rfl, hread, Option.map_some]
      | nonterminal n =>
        have hread : @Production.decode _ _ l v body = some n := htakes
        change @Node.decode _ _ l v (.obj [("NonTerminal", body)]) = _
        rw [Node.decode, if_neg (by decide), if_neg (by decide), if_pos rfl, hread,
          Option.map_some]

/-- The codecs of this library follow the rules for what the stored types declare. -/
theorem own_lawful : own.Lawful where
  text := own_text
  word32 := own_word32
  word64 := own_word64
  int32 := own_int32
  int64 := own_int64
  option := own_option
  list := own_list
  location := own_location
  terminal v _ := own_terminal _ v
  error _ := own_error _
  production := own_production
  node := own_node

end Codecs

end ParseMarkup
