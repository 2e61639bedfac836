import ParseMarkup.Proofs.Json.Declared
import ParseMarkup.Proofs.Json.Format
import ParseMarkup.Proofs.Json.Spelling

/-!
# Derived codecs are faithful

A codec is faithful if each value is read from exactly what stands for it, and is written as
something that stands for it and nests no deeper than anything else that does. The rule for each
way to declare a type carries this from the parts of a value to the value; for nodes that is an
induction on the tree.

The module introduces:

* `Codec.FaithfulAt` and `Codec.Faithful`: a codec that is faithful for one value, and for all;
* `Member.Faithful`: a member that is written and taken as a field is spelled.

The main statements: one for each rule, such as `Codec.Structure.faithfulAt`, and from them
`SourceLocation.faithful`, `Terminal.faithful`, `ErrorNode.faithful`, `Production.faithful` and
`Node.faithful`.
-/

namespace ParseMarkup

open Json Json.Field

variable {keeps : String → Prop}

namespace Codec

variable {α : Type}

/-- A codec that is faithful for the value `a`, for which `Spells` says what stands. -/
structure FaithfulAt (c : Codec α) (keeps : String → Prop) (a : α) (Spells : Json → Prop) :
    Prop where
  /-- What stands for the value is read as it, and nothing else is. -/
  decode_iff : ∀ {j}, c.decode j = some a ↔ Spells j
  /-- What is written for the value stands for it. -/
  spells_encode : Spells (c.encode a)
  /-- `null` does not stand for a value. -/
  not_spells_null : ¬ Spells .null
  /-- What is written for the value can be kept in every format. -/
  portable : (c.encode a).Portable keeps
  /-- Nothing that stands for the value nests less deep. -/
  nesting_le : ∀ {j}, Spells j → (c.encode a).nesting ≤ j.nesting

/-- A codec that is faithful for all values of its type. -/
def Faithful (c : Codec α) (keeps : String → Prop) [Spelling α] : Prop :=
  ∀ a, c.FaithfulAt keeps a (Spelling.Spells a)

/-- No value is read from `null`. -/
theorem Faithful.decode_null [Spelling α] {c : Codec α} (hc : c.Faithful keeps) :
    c.decode .null = none := by
  rw [Option.eq_none_iff_forall_ne_some]
  exact fun a hdecode => (hc a).not_spells_null ((hc a).decode_iff.1 hdecode)

/-- A scalar stands for itself in its only form. -/
theorem Scalar.faithfulAt {c : Codec α} {form : α → Json} (hc : c.Scalar form) {a : α}
    (hportable : (form a).Portable keeps) (hnull : form a ≠ .null) :
    c.FaithfulAt keeps a (· = form a) where
  decode_iff := hc.decode_iff
  spells_encode := hc.encode_eq a
  not_spells_null h := hnull h.symm
  portable := by rwa [hc.encode_eq]
  nesting_le hform := Nat.le_of_eq (by rw [hc.encode_eq, hform])

end Codec

/-! ## Members -/

/-- A member that is written and taken as the field `f` is spelled. -/
structure Member.Faithful (keeps : String → Prop) (m : Member) (f : Field) : Prop where
  /-- The member is taken from the values that stand for the field. -/
  sameAs : m.SameAs f
  /-- What is written for the member stands for the field. -/
  takes_form : f.Takes m.form
  /-- What is written for the member can be kept in every format. -/
  portable : m.form.Portable keeps
  /-- Nothing that stands for the field nests less deep. -/
  nesting_le : ∀ {j}, f.Takes j → m.form.nesting ≤ j.nesting
  /-- What is written for a field that may be missing does not nest at all. -/
  nesting_of_omissible : f.Omissible → m.form.nesting = 0

namespace Codec

variable {α : Type}

/-- A member that must be there is as faithful as the codec of its value. -/
theorem FaithfulAt.member {c : Codec α} {a : α} {Spells : Json → Prop}
    (ha : c.FaithfulAt keeps a Spells) (name : String) :
    (c.member name a).Faithful keeps ⟨name, Spells, False⟩ where
  sameAs := ⟨rfl, fun _ => ha.decode_iff, Iff.rfl⟩
  takes_form := ha.spells_encode
  portable := ha.portable
  nesting_le := ha.nesting_le
  nesting_of_omissible := False.elim

/-- An optional member is faithful if the codec of its value is: no value is taken for an absent
one. -/
theorem Optional.member [Spelling α] {c : Codec (Option α)} {item : Codec α}
    (hc : c.Optional item) (hitem : item.Faithful keeps) (name : String) (a? : Option α) :
    (c.optionalMember name a?).Faithful keeps (.optional name a?) where
  sameAs := by
    refine ⟨rfl, fun j => ?_, Iff.rfl⟩
    change c.decode j = some a? ↔ a?.elim (j = .null) (Spelling.Spells · j)
    -- a present value does not spell `null`, so `null` stands for the missing one alone
    by_cases hnull : j = .null
    · subst hnull
      rw [hc.decode_null]
      cases a? with
      | none => simp
      | some a => simpa using (hitem a).not_spells_null
    · rw [hc.decode_of_ne_null hnull]
      cases a? with
      | none => simp [hnull]
      | some a => simpa using (hitem a).decode_iff
  takes_form := by
    cases a? with
    | none => exact hc.encode_none
    | some a =>
      change Spelling.Spells a (c.encode (some a))
      rw [hc.encode_some]
      exact (hitem a).spells_encode
  portable := by
    change (c.encode a?).Portable keeps
    cases a? with
    | none =>
      rw [hc.encode_none]
      trivial
    | some a =>
      rw [hc.encode_some]
      exact (hitem a).portable
  nesting_le {j} hspells := by
    change (c.encode a?).nesting ≤ j.nesting
    cases a? with
    | none =>
      rw [hc.encode_none]
      exact Nat.zero_le _
    | some a =>
      rw [hc.encode_some]
      exact (hitem a).nesting_le hspells
  nesting_of_omissible hnone := by
    obtain rfl : a? = none := hnone
    change (c.encode none).nesting = 0
    rw [hc.encode_none]
    rfl

end Codec

/-! ## Structures -/

section Structures

variable {ms : List Member} {fields : List Field}

/-- What is written for the fields of a structure stands for them. -/
theorem kept_forms (hms : List.Forall₂ (Member.Faithful keeps) ms fields) :
    Kept fields (ms.map fun m => (m.name, m.form)) := by
  induction hms with
  | nil => exact .nil
  | cons hfirst _ ih =>
    rw [List.map_cons, hfirst.sameAs.name_eq]
    exact .keep hfirst.takes_form ih

/-- What is written for the fields of a structure can be kept in every format. -/
theorem portableMembers_forms (hms : List.Forall₂ (Member.Faithful keeps) ms fields) :
    PortableMembers keeps (ms.map fun m => (m.name, m.form)) := by
  induction hms with
  | nil => trivial
  | cons hfirst _ ih => exact ⟨hfirst.portable, ih⟩

/-- No other members that are kept for the fields nest less deep than those that are written. -/
theorem nestingMembers_forms_le_of_kept (hms : List.Forall₂ (Member.Faithful keeps) ms fields)
    {kept : List (String × Json)} (hkept : Kept fields kept) :
    nestingMembers (ms.map fun m => (m.name, m.form)) ≤ nestingMembers kept := by
  induction hms generalizing kept with
  | nil => exact Nat.zero_le _
  | cons hfirst _ ih =>
    rw [List.map_cons, nestingMembers]
    cases hkept with
    | keep htakes hkept =>
      rw [nestingMembers]
      have := hfirst.nesting_le htakes
      have := ih hkept
      omega
    -- a member that may be left out is written as `null`, which does not nest
    | leaveOut homissible hkept =>
      rw [hfirst.nesting_of_omissible homissible, Nat.zero_max]
      exact ih hkept

/-- Nor does an array of the fields. -/
theorem nestingMembers_forms_le_of_items (hms : List.Forall₂ (Member.Faithful keeps) ms fields)
    {items : List Json} (hitems : List.Forall₂ Field.Takes fields items) :
    nestingMembers (ms.map fun m => (m.name, m.form)) ≤ nestingAll items := by
  induction hms generalizing items with
  | nil => exact Nat.zero_le _
  | cons hfirst _ ih =>
    obtain _ | ⟨htakes, hitems⟩ := hitems
    rw [List.map_cons, nestingMembers, nestingAll]
    have := hfirst.nesting_le htakes
    have := ih hitems
    omega

/-- A structure is as faithful as its fields, which have different names. -/
theorem Codec.Structure.faithfulAt {α : Type} {c : Codec α} {members : α → List Member}
    (hc : c.Structure members) {a : α}
    (hms : List.Forall₂ (Member.Faithful keeps) (members a) fields)
    (hnodup : (fields.map Field.name).Nodup) :
    c.FaithfulAt keeps a (SpellsFields fields) where
  decode_iff {j} := by
    -- the declared fields take what the fields of the value take, and there a name stands for one
    -- field
    have hsame : List.Forall₂ SameAs ((members a).map Member.toField) fields :=
      List.forall₂_map_left_iff.2 (hms.imp fun _ _ h => h.sameAs)
    rw [hc.decode_iff, foundFrom_congr hsame, foundFrom_iff_spellsFields hnodup]
  spells_encode := by
    rw [hc.encode_eq]
    exact .of_kept (kept_forms hms)
  not_spells_null := nofun
  portable := by
    rw [hc.encode_eq]
    exact portableMembers_forms hms
  nesting_le {j} hspells := by
    rw [hc.encode_eq, nesting]
    cases hspells with
    | @object kept unknown members hkept _ hperm =>
      -- the kept members are among all members, which nest as deep as the deepest of them
      have hle : nestingMembers kept ≤ nestingMembers members :=
        nestingMembers_le_iff.2 fun m hm =>
          nestingMembers_le_iff.1 (Nat.le_refl _) m (hperm.mem_iff.2 (List.mem_append_left _ hm))
      exact Nat.succ_le_succ (Nat.le_trans (nestingMembers_forms_le_of_kept hms hkept) hle)
    | array hitems => exact Nat.succ_le_succ (nestingMembers_forms_le_of_items hms hitems)

end Structures

/-! ## Lists and tagged values -/

namespace Codec

variable {α : Type}

/-- A list is as faithful as its items. -/
theorem Sequence.faithfulAt {c : Codec (List α)} {item : Codec α} (hc : c.Sequence item)
    {Spells : α → Json → Prop} {xs : List α}
    (hxs : ∀ a ∈ xs, item.FaithfulAt keeps a (Spells a)) :
    c.FaithfulAt keeps xs (fun j => ∃ items, j = .arr items ∧ List.Forall₂ Spells xs items) where
  decode_iff {j} := by
    have hitems : ∀ items, List.Forall₂ (fun a i => item.decode i = some a) xs items ↔
        List.Forall₂ Spells xs items := by
      induction xs with
      | nil => simp
      | cons a xs ih =>
        obtain ⟨ha, hxs⟩ := List.forall_mem_cons.1 hxs
        intro items
        simp only [List.forall₂_cons_left_iff, ha.decode_iff, ih hxs]
    simp only [hc.decode_iff, hitems]
  spells_encode := by
    refine ⟨_, hc.encode_eq xs, List.forall₂_map_right_iff.2 (List.forall₂_same.2 ?_)⟩
    exact fun a ha => (hxs a ha).spells_encode
  not_spells_null := nofun
  portable := by
    rw [hc.encode_eq]
    refine portableAll_iff.2 fun j hj => ?_
    obtain ⟨a, ha, rfl⟩ := List.mem_map.1 hj
    exact (hxs a ha).portable
  nesting_le {j} hspells := by
    obtain ⟨items, rfl, hitems⟩ := hspells
    rw [hc.encode_eq, nesting, nesting]
    refine Nat.succ_le_succ ?_
    induction hitems with
    | nil => exact Nat.le_refl _
    | cons hfirst _ ih =>
      obtain ⟨ha, hxs⟩ := List.forall_mem_cons.1 hxs
      rw [List.map_cons, nestingAll, nestingAll]
      have := ha.nesting_le hfirst
      have := ih hxs
      omega

/-- A tagged value is as faithful as what its kind holds. -/
theorem Tagged.faithfulAt {c : Codec α} {kind : α → Member} (hc : c.Tagged kind) {a : α} {f : Field}
    (ha : (kind a).Faithful keeps f) :
    c.FaithfulAt keeps a (fun j => ∃ body, j = .obj [(f.name, body)] ∧ f.Takes body) where
  decode_iff {j} := by simp only [hc.decode_iff, ha.sameAs.name_eq, ha.sameAs.takes_iff]
  spells_encode := ⟨_, by rw [hc.encode_eq, ha.sameAs.name_eq], ha.takes_form⟩
  not_spells_null := nofun
  portable := by
    rw [hc.encode_eq]
    exact ⟨ha.portable, trivial⟩
  nesting_le {j} hspells := by
    obtain ⟨body, rfl, htakes⟩ := hspells
    have := ha.nesting_le htakes
    simp only [hc.encode_eq, nesting, nestingMembers]
    omega

end Codec

/-! ## Texts and integers -/

namespace Codecs.Lawful

variable {c : Codecs} (hc : c.Lawful)

include hc

/-- The codec of texts is faithful. -/
theorem text_faithful : c.text.Faithful keeps := fun _ => hc.text.faithfulAt trivial nofun

/-- So is that of integers of 32 bits without a sign. -/
theorem word32_faithful : c.word32.Faithful keeps := by
  intro n
  refine hc.word32.faithfulAt ⟨Int.le_trans (by decide) (Int.natCast_nonneg _), ?_⟩ nofun
  exact Int.ofNat_lt.2 (Nat.lt_trans n.toNat_lt_size (by decide))

/-- So is that of integers of 64 bits without a sign. -/
theorem word64_faithful : c.word64.Faithful keeps := by
  intro n
  refine hc.word64.faithfulAt ⟨Int.le_trans (by decide) (Int.natCast_nonneg _), ?_⟩ nofun
  exact Int.ofNat_lt.2 n.toNat_lt_size

/-- So is that of integers of 32 bits with a sign. -/
theorem int32_faithful : c.int32.Faithful keeps := by
  intro i
  refine hc.int32.faithfulAt ⟨Int.le_trans (by decide) i.minValue_le_toInt, ?_⟩ nofun
  exact Int.lt_of_le_of_lt i.toInt_le (by decide)

/-- So is that of integers of 64 bits with a sign. -/
theorem int64_faithful : c.int64.Faithful keeps := by
  intro i
  exact hc.int64.faithfulAt ⟨i.minValue_le_toInt, Int.lt_of_le_of_lt i.toInt_le (by decide)⟩ nofun

end Codecs.Lawful

/-! ## Locations and nodes -/

/-- The codec of locations is faithful. -/
theorem SourceLocation.faithful {c : Codecs} (hc : c.Lawful) : c.location.Faithful keeps := by
  intro loc
  have hfields : List.Forall₂ (Member.Faithful keeps) (members c loc) loc.fields :=
    .cons ((hc.option c.text).member hc.text_faithful _ _) <|
    .cons ((hc.word64_faithful loc.line).member _) <|
    .cons ((hc.word64_faithful loc.column).member _) <|
    .cons ((hc.word64_faithful loc.offset).member _) .nil
  exact hc.location.faithfulAt hfields (by simp [fields, required, Field.optional])

variable {L V : Type} [Spelling L] [Spelling V] {c : Codecs} {l : Codec L} {v : Codec V}

/-- The codec of tokens is faithful if those of locations and values are. -/
theorem Terminal.faithful (hc : c.Lawful) (hl : l.Faithful keeps) (hv : v.Faithful keeps) :
    (c.terminal l v).Faithful keeps := by
  intro t
  have hfields : List.Forall₂ (Member.Faithful keeps) (members c l v t) t.fields :=
    .cons ((hl t.left).member _) <| .cons ((hc.text_faithful t.tag).member _) <|
    .cons ((hc.option v).member hv _ _) <| .cons ((hl t.right).member _) .nil
  exact (hc.terminal v hl.decode_null).faithfulAt hfields (by simp [fields, required, Field.optional])

/-- So is the codec of error leaves. -/
theorem ErrorNode.faithful (hc : c.Lawful) (hl : l.Faithful keeps) :
    (c.error l).Faithful keeps := by
  intro e
  have hfields : List.Forall₂ (Member.Faithful keeps) (members l e) e.fields :=
    .cons ((hl e.left).member _) <| .cons ((hl e.right).member _) .nil
  exact (hc.error hl.decode_null).faithfulAt hfields (by simp [fields, required])

/-- The codec of productions is faithful for a production if that of nodes is for its children. -/
theorem Production.faithfulAt (hc : c.Lawful) {n : Production (Node L V)}
    (hcs : ∀ d ∈ n.children, (c.node l v).FaithfulAt keeps d d.Spells) :
    (c.production l v).FaithfulAt keeps n (SpellsFields n.fields) := by
  have hchildren := ((hc.list (c.node l v)).faithfulAt hcs).member "children"
  simp only [← Node.spellsAll_iff] at hchildren
  have hfields : List.Forall₂ (Member.Faithful keeps) (members c l v n) n.fields :=
    .cons ((hc.text_faithful n.tag).member _) <|
    .cons ((hc.int32_faithful n.variant).member _) <| .cons hchildren .nil
  exact (hc.production l v).faithfulAt hfields (by simp [fields, fieldsWith, required])

/-- The codec of nodes is faithful for a node if that of its kind is for what the node holds. -/
theorem Node.faithfulAt_of_kind (hc : c.Lawful) {t : Node L V}
    (hkind : (t.kind c l v).Faithful keeps t.kindField) :
    (c.node l v).FaithfulAt keeps t t.Spells := by
  have hspells : t.Spells = fun j =>
      ∃ body, j = .obj [(t.kindField.name, body)] ∧ t.kindField.Takes body :=
    funext fun j => propext (t.spells_iff j)
  rw [hspells]
  exact (hc.node l v).faithfulAt hkind

mutual

/-- The codec of nodes is faithful if those of locations and values are. -/
theorem Node.faithfulAt (hc : c.Lawful) (hl : l.Faithful keeps) (hv : v.Faithful keeps) :
    ∀ t : Node L V, (c.node l v).FaithfulAt keeps t t.Spells
  | .terminal t => Node.faithfulAt_of_kind hc ((Terminal.faithful hc hl hv t).member "Terminal")
  | .error e => Node.faithfulAt_of_kind hc ((ErrorNode.faithful hc hl e).member "Error")
  | .nonterminal ⟨_, _, cs⟩ =>
    Node.faithfulAt_of_kind hc
      ((Production.faithfulAt hc (Node.faithfulAt_children hc hl hv cs)).member "NonTerminal")

/-- It is faithful for all children of a production. -/
theorem Node.faithfulAt_children (hc : c.Lawful) (hl : l.Faithful keeps) (hv : v.Faithful keeps) :
    ∀ cs : List (Node L V), ∀ d ∈ cs, (c.node l v).FaithfulAt keeps d d.Spells
  | [] => nofun
  | d :: cs => List.forall_mem_cons.2
    ⟨Node.faithfulAt hc hl hv d, Node.faithfulAt_children hc hl hv cs⟩

end

/-- So is the codec of productions. -/
theorem Production.faithful (hc : c.Lawful) (hl : l.Faithful keeps) (hv : v.Faithful keeps) :
    (c.production l v).Faithful keeps := fun n =>
  Production.faithfulAt hc (Node.faithfulAt_children hc hl hv n.children)

/-- The codec of nodes is faithful for all trees. -/
theorem Node.faithful (hc : c.Lawful) (hl : l.Faithful keeps) (hv : v.Faithful keeps) :
    (c.node l v).Faithful keeps := Node.faithfulAt hc hl hv

end ParseMarkup
