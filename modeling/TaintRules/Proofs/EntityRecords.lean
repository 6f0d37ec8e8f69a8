import Mathlib.Data.List.Nodup
import TaintRules.Entity.Json
import TaintRules.Proofs.EntryPoints
import TaintRules.Proofs.JsonText

/-!
# Entities that are written and read again

An entity is written with the fields that it has, and read as a loader's record, in which every
field may be missing. Each field that is read is filled in by itself, so it does not matter in which
order they come; nor does it for flags, which are kept in the order of their positions. The record
is then the one that describes the entity, and it is taken or refused as the entity is.
-/

namespace TaintRules

/-! ### Flags -/

namespace ConstFlags

variable {position : UInt64} {flag : Bool} {entry : UInt64 × Bool} {l : List (UInt64 × Bool)}

/-- Noting what is known already of a position adds no other entry. -/
theorem mem_insertEntry_iff (h : ∀ e ∈ l, e.1 = position → e = (position, flag)) :
    entry ∈ insertEntry position flag l ↔ entry = (position, flag) ∨ entry ∈ l := by
  induction l with
  | nil => simp [insertEntry]
  | cons head rest ih =>
    obtain ⟨other, old⟩ := head
    obtain ⟨hhead, hrest⟩ := List.forall_mem_cons.mp h
    rw [insertEntry]
    split
    · rw [List.mem_cons]
    · split
      · next he =>
        rw [hhead he.symm]
        simp
      · rw [List.mem_cons, ih hrest, List.mem_cons, or_left_comm]

private theorem nodup_positions (flags : ConstFlags) : (flags.entries.map (·.1)).Nodup := by
  refine List.pairwise_map.mpr (flags.ascending.imp ?_)
  intro a b hlt he
  rw [he] at hlt
  exact UInt64.lt_irrefl _ hlt

/-- One position has one flag. -/
theorem eq_of_position (flags : ConstFlags) {a b : UInt64 × Bool} (ha : a ∈ flags.entries)
    (hb : b ∈ flags.entries) (h : a.1 = b.1) : a = b :=
  List.inj_on_of_nodup_map (nodup_positions flags) ha hb h

/-- Flags with the same entries are the same. -/
theorem eq_of_mem_iff {a b : ConstFlags} (h : ∀ entry, entry ∈ a.entries ↔ entry ∈ b.entries) :
    a = b := by
  have hp : a.entries.Perm b.entries :=
    (List.perm_ext_iff_of_nodup (nodup_positions a).of_map (nodup_positions b).of_map).mpr h
  have he : a.entries = b.entries := by
    refine hp.eq_of_pairwise ?_ a.ascending b.ascending
    intro x y _ _ hxy hyx
    exact absurd (UInt64.lt_trans hxy hyx) (UInt64.lt_irrefl _)
  cases a
  cases b
  simpa using he

/-- A flag as the field of an object. -/
def fieldOf (entry : UInt64 × Bool) : String × Json := (toString entry.1.toNat, .bool entry.2)

/-- Flags are written without numbers. -/
theorem isExact_toJson (flags : ConstFlags) : flags.toJson.IsExact := by
  refine Json.fieldsAreExact_iff.mpr ?_
  intro field hm
  obtain ⟨entry, -, rfl⟩ := List.mem_map.mp hm
  trivial

end ConstFlags

namespace Schema

open ConstFlags

/-- A position is read from its digits. -/
theorem position_toString (position : UInt64) :
    Schema.position (toString position.toNat) = .ok position := by
  have hl : (toString position.toNat).toList = Nat.toDigits 10 position.toNat := Nat.toList_repr
  have hv : Decimal.digitsValue (Nat.toDigits 10 position.toNat) = position.toNat :=
    Nat.ofDigitChars_ten_toDigits
  have hn : position.toNat < UInt64.size := position.toNat_lt
  obtain ⟨first, rest, he, hzero, hd⟩ := Json.exists_toDigits position.toNat
  rw [he] at hl hv
  have hall : (first :: rest).all Char.isDigit = true := List.all_eq_true.mpr hd
  have hfirst : first.isDigit = true := hd first List.mem_cons_self
  have hlead : (first ≠ '0' || rest.isEmpty) = true := by
    rcases hzero with h | rfl
    · simp [h]
    · simp
  simp only [Schema.position, hl, hv, hall, hfirst, hlead, hn]
  simp

/-- Reads one more flag. -/
def readFlag (flags : ConstFlags) (field : String × Json) : Except SchemaError ConstFlags := do
  let position ← Schema.position field.1
  return flags.insert position (← bool field.2)

/-- A flag is read from its field. -/
theorem readFlag_fieldOf (flags : ConstFlags) (entry : UInt64 × Bool) :
    readFlag flags (fieldOf entry) = .ok (flags.insert entry.1 entry.2) := by
  rw [readFlag, fieldOf, position_toString]
  rfl

theorem fieldOf_inj {a b : UInt64 × Bool} (h : fieldOf a = fieldOf b) : a = b := by
  have hp := congrArg (fun field ↦ Schema.position field.1) h
  simp only [fieldOf, position_toString, Except.ok.injEq] at hp
  exact Prod.ext hp (Json.bool.inj (congrArg Prod.snd h))

/-- Reading fields of `flags` adds the flags that they write, whatever was read of them before. -/
theorem foldlM_readFlag {flags known : ConstFlags} {fields : List (String × Json)}
    (hf : ∀ field ∈ fields, ∃ entry ∈ flags.entries, fieldOf entry = field)
    (hk : ∀ entry ∈ known.entries, entry ∈ flags.entries) :
    ∃ read, fields.foldlM readFlag known = .ok read ∧
      ∀ entry, entry ∈ read.entries ↔ entry ∈ known.entries ∨ fieldOf entry ∈ fields := by
  induction fields generalizing known with
  | nil => exact ⟨known, rfl, by simp⟩
  | cons field rest ih =>
    obtain ⟨⟨first, hm, rfl⟩, hrest⟩ := List.forall_mem_cons.mp hf
    have hmem (entry : UInt64 × Bool) : entry ∈ (known.insert first.1 first.2).entries ↔
        entry = first ∨ entry ∈ known.entries :=
      mem_insertEntry_iff fun e he hp ↦ flags.eq_of_position (hk e he) hm hp
    obtain ⟨read, hr, hread⟩ := @ih (known.insert first.1 first.2) hrest (by
      intro entry he
      rcases (hmem entry).mp he with rfl | he
      · exact hm
      · exact hk entry he)
    refine ⟨read, ?_, ?_⟩
    · rw [List.foldlM_cons, readFlag_fieldOf]
      exact hr
    · intro entry
      have hfield : fieldOf entry = fieldOf first ↔ entry = first :=
        ⟨fieldOf_inj, congrArg fieldOf⟩
      rw [hread, hmem, List.mem_cons, hfield, or_assoc, or_left_comm]

/-- Flags are read from their fields, in any order. -/
theorem constFlags_object {flags : ConstFlags} {fields : List (String × Json)}
    (h : fields.Perm (flags.entries.map fieldOf)) : constFlags (.object fields) = .ok flags := by
  have hf : ∀ field ∈ fields, ∃ entry ∈ flags.entries, fieldOf entry = field :=
    fun field hm ↦ List.mem_map.mp (h.mem_iff.mp hm)
  obtain ⟨read, hr, hread⟩ := @foldlM_readFlag flags ConstFlags.empty fields hf nofun
  have he : read = flags := by
    apply ConstFlags.eq_of_mem_iff
    intro entry
    rw [hread, h.mem_iff, List.mem_map_of_injective fun _ _ ↦ fieldOf_inj]
    simp [ConstFlags.empty]
  rw [he] at hr
  exact hr

/-- Flags are read as they are written, as a value and as a text. -/
theorem constFlags_toJson (flags : ConstFlags) :
    constFlags flags.toJson = .ok flags ∧ constFlags flags.toJson.asRead = .ok flags := by
  have hnames : ((flags.entries.map fieldOf).map (·.1)).Nodup := by
    rw [List.map_map]
    refine List.pairwise_map.mpr (flags.ascending.imp ?_)
    intro a b hlt he
    have hp := congrArg Schema.position he
    simp only [Function.comp, fieldOf, position_toString, Except.ok.injEq] at hp
    rw [hp] at hlt
    exact UInt64.lt_irrefl _ hlt
  refine ⟨constFlags_object (.refl _), constFlags_object ?_⟩
  have hp := @Json.fieldsAsRead_perm (flags.entries.map fieldOf) [] (by simpa using hnames)
  rw [List.append_nil, List.map_map] at hp
  exact hp

end Schema

/-! ### Records -/

namespace EntityRecord

/-- The field of an object says the same as the record. -/
inductive Gives (r : EntityRecord) : String × Json → Prop
  | id : r.Gives ("id", .text r.id)
  | kind : r.Gives ("kind", .text r.kind)
  | baseType (type : String) (h : r.baseType = some type) : r.Gives ("base_type", .text type)
  | call (name : String) (h : r.call = some name) : r.Gives ("call", .text name)
  | read (name : String) (h : r.read = some name) : r.Gives ("read", .text name)
  | qualifiedCall (name : String) (h : r.qualifiedCall = some name) :
    r.Gives ("qualified_call", .text name)
  | args : r.Gives ("args", .texts r.args)
  | isConst (flags : Json) (h : Schema.constFlags flags = .ok r.isConst) :
    r.Gives ("is_const", flags)

/-- The record with the fields of some names, and the others missing. -/
def restrict (r : EntityRecord) (names : List String) : EntityRecord where
  id := if "id" ∈ names then r.id else ""
  kind := if "kind" ∈ names then r.kind else ""
  baseType := if "base_type" ∈ names then r.baseType else none
  call := if "call" ∈ names then r.call else none
  read := if "read" ∈ names then r.read else none
  qualifiedCall := if "qualified_call" ∈ names then r.qualifiedCall else none
  args := if "args" ∈ names then r.args else []
  isConst := if "is_const" ∈ names then r.isConst else ConstFlags.empty

theorem restrict_congr (r : EntityRecord) {a b : List String} (h : ∀ name, name ∈ a ↔ name ∈ b) :
    r.restrict a = r.restrict b := by
  simp only [restrict, h]

private theorem list_texts (args : List String) :
    Schema.list Schema.text (Json.texts args) = .ok args := by
  change (args.map Json.text).mapM Schema.text = .ok args
  induction args with
  | nil => rfl
  | cons arg rest ih =>
    rw [List.map_cons, List.mapM_cons, ih]
    rfl

/-- A field of the record is filled in. -/
theorem readField_restrict {r : EntityRecord} {field : String × Json} (h : r.Gives field)
    (names : List String) :
    Schema.entityRecord.readField (r.restrict names) field =
      .ok (r.restrict (field.1 :: names)) := by
  cases h with
  | id | kind =>
    simp [Schema.Record.readField, Schema.entityRecord, Schema.defaulted, Schema.text, Except.map,
      restrict]
  | baseType _ h | call _ h | read _ h | qualifiedCall _ h =>
    simp [Schema.Record.readField, Schema.entityRecord, Schema.defaulted, Schema.optional,
      Schema.text, Except.map, restrict, h]
  | args =>
    simp [Schema.Record.readField, Schema.entityRecord, Schema.defaulted, list_texts, Except.map,
      restrict]
  | isConst flags h =>
    simp [Schema.Record.readField, Schema.entityRecord, Schema.defaulted, Except.map, restrict, h]

/-- Fields of the record are filled in one after the other. -/
theorem foldlM_readField {r : EntityRecord} {fields : List (String × Json)}
    (h : ∀ field ∈ fields, r.Gives field) (names : List String) :
    fields.foldlM Schema.entityRecord.readField (r.restrict names) =
      .ok (r.restrict ((fields.map (·.1)).reverse ++ names)) := by
  induction fields generalizing names with
  | nil => rfl
  | cons field rest ih =>
    obtain ⟨hfield, hrest⟩ := List.forall_mem_cons.mp h
    rw [List.foldlM_cons, readField_restrict hfield]
    refine (ih hrest (field.1 :: names)).trans ?_
    rw [List.map_cons, List.reverse_cons, List.append_assoc, List.singleton_append]

/-- A record is read from an object whose fields say the same, if it has no others. -/
theorem read_object {r : EntityRecord} {fields : List (String × Json)}
    (hg : ∀ field ∈ fields, r.Gives field) (hr : r.restrict (fields.map (·.1)) = r) :
    Schema.entityRecord.read (.object fields) = .ok r := by
  have hf := foldlM_readField hg []
  rw [List.append_nil, restrict_congr r fun name ↦ List.mem_reverse, hr] at hf
  have hd : Schema.entityRecord.defaults = r.restrict [] := rfl
  rw [Schema.Record.read, Schema.Record.ofFields, hd, hf]
  rfl

/-- A record is read from an object that is written, as a value and as a text. -/
theorem read_written {r : EntityRecord} {fields : List (String × Json)}
    (hn : (fields.map (·.1)).Nodup)
    (hg : ∀ field ∈ fields, field.2.IsExact ∧ r.Gives field ∧ r.Gives (field.1, field.2.asRead))
    (hr : r.restrict (fields.map (·.1)) = r) :
    Schema.entityRecord.read (.object fields) = .ok r ∧
      ∃ value, Json.read? (Json.object fields).write = some value ∧
        Schema.entityRecord.read value = .ok r := by
  have he : (Json.object fields).IsExact :=
    Json.fieldsAreExact_iff.mpr fun field hm ↦ (hg field hm).1
  have hp := @Json.fieldsAsRead_perm fields [] (by simpa using hn)
  rw [List.append_nil] at hp
  refine ⟨read_object (fun field hm ↦ (hg field hm).2.1) hr, _, Json.read?_write he,
    read_object ?_ ?_⟩
  · intro field hm
    obtain ⟨written, hw, rfl⟩ := List.mem_map.mp (hp.mem_iff.mp hm)
    exact (hg written hw).2.2
  · refine (restrict_congr r fun name ↦ ?_).trans hr
    rw [(hp.map (·.1)).mem_iff, List.map_map]
    rfl

end EntityRecord

/-- A value that is read as a record is taken or refused as the record is. -/
theorem Schema.entity_of_read {value : Json} {record : EntityRecord}
    (h : Schema.entityRecord.read value = .ok record) :
    Schema.entity value = record.toEntity.mapError fun error ↦ .refused error.message := by
  unfold Schema.entity
  rw [h]
  simp only [bind, Except.bind]
  cases record.toEntity with
  | ok e => rfl
  | error e => rfl

/-! ### Entities -/

namespace Entity

/-- The entity with blank names counted as missing. -/
def withoutBlanks : Entity → Entity
  | .call site => .call { site with
      baseType := Text.nonBlank site.baseType
      qualifiedCall := Text.nonBlank site.qualifiedCall }
  | .read access => .read { access with baseType := Text.nonBlank access.baseType }

/-- The record of an entity describes it up to blank names, and is refused as the entity is. -/
theorem toEntity_toRecord (e : Entity) :
    e.toRecord.toEntity = e.validate.map fun _ ↦ e.withoutBlanks := by
  have hcall : EntityKind.parse? EntityKind.call.name = some .call := by decide
  have hread : EntityKind.parse? EntityKind.read.name = some .read := by decide
  cases hb : Text.isBlank e.member with
  | true =>
    have hn : Text.nonBlank (some e.member) = none := by simp [Text.nonBlank, hb]
    have hv : e.validate = .error (.missingMember e.id e.kind e.kind.name) := if_pos hb
    rw [hv, EntityRecord.toEntity]
    cases e with
    | call site =>
      rw [member] at hn
      simp only [toRecord, hcall, hn]
      rfl
    | read access =>
      rw [member] at hn
      simp only [toRecord, hread, hn]
      rfl
  | false =>
    have hn : Text.nonBlank (some e.member) = some e.member := by simp [Text.nonBlank, hb]
    have hv : e.validate = .ok () := by rw [validate, hb, if_neg Bool.false_ne_true]
    rw [hv, EntityRecord.toEntity]
    cases e with
    | call site =>
      rw [member] at hn
      simp only [toRecord, hcall, hn]
      rfl
    | read access =>
      rw [member] at hn
      simp only [toRecord, hread, hn]
      rfl

private theorem nonBlank_nonBlank (name : Option String) :
    Text.nonBlank (Text.nonBlank name) = Text.nonBlank name := by
  simp [Text.nonBlank, Option.filter_filter]

/-- An entity that a record describes has no blank names. -/
theorem withoutBlanks_of_toEntity {r : EntityRecord} {e : Entity} (h : r.toEntity = .ok e) :
    e.withoutBlanks = e := by
  unfold EntityRecord.toEntity at h
  split at h
  · cases h
  · split at h
    · cases h
    · cases h
      rw [withoutBlanks, nonBlank_nonBlank, nonBlank_nonBlank]
    · cases h
      rw [withoutBlanks, nonBlank_nonBlank]
    · cases h

private theorem mem_textField? {name : String} {value : Option String} {field : String × Json} :
    field ∈ Json.field? name (value.map .text) ↔ ∃ s, value = some s ∧ field = (name, .text s) := by
  cases value with
  | none => simp [Json.field?]
  | some s => simp [Json.field?]

/-- An entity that is written is read as the record that describes it, as a value and as a text. -/
theorem read_toJson (e : Entity) :
    Schema.entityRecord.read e.toJson = .ok e.toRecord ∧
      ∃ value, Json.read? e.toJson.write = some value ∧
        Schema.entityRecord.read value = .ok e.toRecord := by
  cases e with
  | call site =>
    obtain ⟨hvalue, htext⟩ := Schema.constFlags_toJson site.isConst
    refine EntityRecord.read_written ?_ ?_ ?_
    · cases site.baseType <;> cases site.qualifiedCall <;> simp [Json.field?]
    · intro field hm
      simp only [List.mem_append, List.mem_cons, List.not_mem_nil, or_false, mem_textField?] at hm
      obtain ((((rfl | rfl) | ⟨type, ht, rfl⟩) | rfl) | ⟨name, hn, rfl⟩) | rfl | rfl := hm
      · exact ⟨trivial, .kind, .kind⟩
      · exact ⟨trivial, .id, .id⟩
      · exact ⟨trivial, .baseType type ht, .baseType type ht⟩
      · exact ⟨trivial, .call site.call rfl, .call site.call rfl⟩
      · exact ⟨trivial, .qualifiedCall name hn, .qualifiedCall name hn⟩
      · exact ⟨Json.isExact_texts _, .args, (Json.asRead_texts site.args).symm ▸ .args⟩
      · exact ⟨site.isConst.isExact_toJson, .isConst _ hvalue, .isConst _ htext⟩
    · cases hb : site.baseType <;> cases hq : site.qualifiedCall <;>
        simp [Json.field?, EntityRecord.restrict, toRecord, hb, hq]
  | read access =>
    refine EntityRecord.read_written ?_ ?_ ?_
    · cases access.baseType <;> simp [Json.field?]
    · intro field hm
      simp only [List.mem_append, List.mem_cons, List.not_mem_nil, or_false, mem_textField?] at hm
      obtain ((rfl | rfl) | ⟨type, ht, rfl⟩) | rfl := hm
      · exact ⟨trivial, .kind, .kind⟩
      · exact ⟨trivial, .id, .id⟩
      · exact ⟨trivial, .baseType type ht, .baseType type ht⟩
      · exact ⟨trivial, .read access.read rfl, .read access.read rfl⟩
    · cases hb : access.baseType <;> simp [Json.field?, EntityRecord.restrict, toRecord, hb]

/-- An entity that is written, as a value or as a text, is read as itself with blank names counted
as missing, if it can be indexed, and else refused with its own error. An entity that a record
describes is read as itself. -/
theorem survives_export (e : Entity) :
    ∃ text, Json.read? e.toJson.write = some text ∧
      ∀ value ∈ [e.toJson, text], ∃ record, Schema.entityRecord.read value = .ok record ∧
        record.toEntity = (e.validate.map fun _ ↦ e.withoutBlanks) ∧
        Schema.entity value = (record.toEntity.mapError fun error ↦ .refused error.message) ∧
        ∀ source : EntityRecord, source.toEntity = .ok e → record.toEntity = .ok e := by
  obtain ⟨hvalue, text, hr, htext⟩ := e.read_toJson
  refine ⟨text, hr, ?_⟩
  intro value hm
  have hread : Schema.entityRecord.read value = .ok e.toRecord := by
    simp only [List.mem_cons, List.not_mem_nil, or_false] at hm
    rcases hm with rfl | rfl
    · exact hvalue
    · exact htext
  refine ⟨e.toRecord, hread, e.toEntity_toRecord, ?_, ?_⟩
  · exact Schema.entity_of_read hread
  · intro source hs
    rw [toEntity_toRecord, isValid_iff.mp (EntityRecord.isValid_of_toEntity hs),
      withoutBlanks_of_toEntity hs]
    rfl

/-- A call with a quoted argument, two of its three positions known, and a blank qualified name. -/
def executeRecord : EntityRecord where
  id := "call-7"
  kind := " Call "
  baseType := some "sqlite3.Cursor"
  call := some "execute"
  qualifiedCall := some " \t"
  args := ["\"SELECT\"\n", "name", "10"]
  isConst := (ConstFlags.empty.insert 2 true).insert 0 false

/-- The call that the record describes is read from its text as itself. -/
theorem survives_export_execute :
    ∃ e text record, executeRecord.toEntity = .ok e ∧ e.qualifiedCall = none ∧
      Json.read? e.toJson.write = some text ∧ Schema.entityRecord.read text = .ok record ∧
        record.toEntity = .ok e := by
  have he : executeRecord.toEntity = .ok (.call
      ⟨"call-7", some "sqlite3.Cursor", "execute", none, executeRecord.args,
        executeRecord.isConst⟩) := by
    decide
  obtain ⟨text, hr, hread⟩ := survives_export _
  obtain ⟨record, hrecord, -, -, hsame⟩ := hread text (by simp)
  exact ⟨_, text, record, he, rfl, hr, hrecord, hsame _ he⟩

end Entity

end TaintRules
