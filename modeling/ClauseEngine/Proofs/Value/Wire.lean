/-
Module: ClauseEngine.Proofs.Value.Wire
Purpose: A value is recovered from its wire form. An object of the wire form is told apart by its
  names alone, so the point is that no name of a record can be taken for a tag: a record that holds
  such a name is wrapped, and the fields of a branded value stand one level down.
Main exports: Value.Portable, Value.decode_tagged, Value.decode_object, Value.decode_encode
-/
import ClauseEngine.Value.Wire
import ClauseEngine.Proofs.DateTime.Text
import ClauseEngine.Proofs.Value.Basic

namespace ClauseEngine

namespace Double

/-- An infinity is settled by its sign. -/
theorem eq_of_isInfinite {x : Double} (h : x.isInfinite = true) :
    x = if x.isNegative then negInfinity else infinity := by
  have hmagnitude : x.bits.toNat % signWeight = infinityMagnitude :=
    of_decide_eq_true h
  have hbits := x.bits.toNat_lt
  have hext {y : Double} (hy : x.bits.toNat = y.bits.toNat) : x = y := by
    cases x
    cases y
    exact congrArg Double.mk (UInt64.toNat_inj.1 hy)
  unfold signWeight infinityMagnitude at hmagnitude
  split
  · rename_i hnegative
    have hsign : signWeight ≤ x.bits.toNat := of_decide_eq_true hnegative
    unfold signWeight at hsign
    have hvalue : negInfinity.bits.toNat = 0xfff0000000000000 := rfl
    exact hext (by omega)
  · rename_i hpositive
    have hsign : ¬ signWeight ≤ x.bits.toNat := by simpa [isNegative] using hpositive
    unfold signWeight at hsign
    have hvalue : infinity.bits.toNat = 0x7ff0000000000000 := rfl
    exact hext (by omega)

end Double

namespace Value

/-! ### Values that the wire form can express

There are two sorts of values that it cannot express: doubles that are no numbers and not the
standard one of these, and date-times before the year 0. -/

mutual

/-- Every NaN inside a value is the standard one, and no date-time inside it has a negative year. -/
def Portable : Value → Prop
  | .float x => x.isNaN → x = Double.nan
  | .dateTime t => 0 ≤ t.date.year
  | .seq items => PortableItems items
  | .record fields => PortableFields fields
  | .left payload => payload.Portable
  | .right payload => payload.Portable
  | .branded _ fields => PortableFields fields
  | _ => True

/-- Every value of a list is portable. -/
def PortableItems : List Value → Prop
  | [] => True
  | item :: rest => item.Portable ∧ PortableItems rest

/-- The value of every field is portable. -/
def PortableFields : List (String × Value) → Prop
  | [] => True
  | (_, value) :: rest => value.Portable ∧ PortableFields rest

end

theorem portableItems_iff {items : List Value} :
    PortableItems items ↔ ∀ item ∈ items, item.Portable := by
  induction items with
  | nil => simp [PortableItems]
  | cons item rest ih => simp [PortableItems, ih]

theorem portableFields_iff {fields : List (String × Value)} :
    PortableFields fields ↔ ∀ field ∈ fields, field.2.Portable := by
  induction fields with
  | nil => simp [PortableFields]
  | cons field rest ih =>
      obtain ⟨name, value⟩ := field
      simp only [PortableFields, ih, List.mem_cons, forall_eq_or_imp]

/-! ### Objects told apart by their names

A tag is the name of the only field of an object. The name of a tag is recognised, and a name that
is not reserved is never taken for one. -/

theorem ofName?_name (tag : Tag) : Tag.ofName? tag.name = some tag := by
  cases tag <;> decide

theorem isReserved_name (tag : Tag) : isReserved tag.name = true := by
  cases tag <;> decide

theorem isReserved_classField : isReserved classField = true := by decide

/-- A name that is not reserved is no tag. -/
theorem ofName?_of_not_reserved {name : String} (h : isReserved name = false) :
    Tag.ofName? name = none := by
  refine List.find?_eq_none.2 fun tag _ htag => ?_
  rw [← eq_of_beq htag, isReserved_name] at h
  cases h

/-- An object with a single tagged field is read by its tag. -/
theorem decode_tagged (tag : Tag) (payload : Json) :
    decode (tagged tag payload) = decodeObject [(tag.name, payload)] := by
  have hclass : [(tag.name, payload)].lookup classField = none := by
    cases tag <;> rfl
  rw [tagged, decode, hclass]

/-- An object none of whose names is reserved is read field by field. -/
theorem decode_object {fields : List (String × Json)}
    (h : ∀ field ∈ fields, isReserved field.1 = false) :
    decode (.object fields) = .record <$> decodeFields fields := by
  have hclass : fields.lookup classField = none := by
    refine List.lookup_eq_none_iff.2 fun field hfield => ?_
    have hname := h field hfield
    rw [bne_iff_ne]
    intro heq
    rw [← heq, isReserved_classField] at hname
    cases hname
  rw [decode, hclass]
  rcases fields with _ | ⟨⟨name, payload⟩, _ | ⟨second, rest⟩⟩
  · simp [decodeObject, decodeFields]
  · -- A single field could be a tag, but its name is not reserved.
    have hname : Tag.ofName? name = none := ofName?_of_not_reserved (h _ List.mem_cons_self)
    unfold decodeObject
    simp only [hname, decodeFields]
    cases decode payload <;> rfl
  · simp [decodeObject]

/-! ### Collections -/

/-- Items are recovered if each of them is. -/
theorem decodeItems_encodeItems {items : List Value}
    (h : ∀ item ∈ items, decode item.encode = .ok item) :
    decodeItems (encodeItems items) = .ok items := by
  induction items with
  | nil => simp [encodeItems, decodeItems]
  | cons item rest ih =>
      have hhead := h item List.mem_cons_self
      have htail := ih fun other hother => h other (List.mem_cons_of_mem _ hother)
      rw [encodeItems, decodeItems, hhead, htail]
      rfl

/-- Fields are recovered if each of their values is. -/
theorem decodeFields_encodeFields {fields : List (String × Value)}
    (h : ∀ field ∈ fields, decode field.2.encode = .ok field.2) :
    decodeFields (encodeFields fields) = .ok fields := by
  induction fields with
  | nil => simp [encodeFields, decodeFields]
  | cons field rest ih =>
      obtain ⟨name, value⟩ := field
      have hhead := h (name, value) List.mem_cons_self
      have htail := ih fun other hother => h other (List.mem_cons_of_mem _ hother)
      rw [encodeFields, decodeFields, hhead, htail]
      rfl

/-- The wire form of fields has their names. -/
theorem exists_of_mem_encodeFields {fields : List (String × Value)} {field : String × Json}
    (h : field ∈ encodeFields fields) : ∃ source ∈ fields, source.1 = field.1 := by
  induction fields with
  | nil => cases h
  | cons first rest ih =>
      obtain ⟨name, value⟩ := first
      rw [encodeFields] at h
      rcases List.mem_cons.1 h with rfl | h
      · exact ⟨(name, value), List.mem_cons_self, rfl⟩
      · obtain ⟨source, hsource, hname⟩ := ih h
        exact ⟨source, List.mem_cons_of_mem _ hsource, hname⟩

/-! ### The round trip, kind by kind

There is one lemma for each kind, with the round trip of the parts as its hypothesis. -/

theorem decode_nat (n : Int64) : decode (encode (.nat n)) = .ok (.nat n) := by
  rw [encode, decode_tagged]
  simp [decodeObject, ofName?_name, decodeNat, Json.integer?]

/-- The special name of a double that is not finite names it, unless it is an odd NaN. -/
theorem special?_specialName {x : Double} (hfinite : x.isFinite = false)
    (hnan : x.isNaN → x = Double.nan) : special? (specialName x) = some x := by
  by_cases h : x.isNaN
  · rw [hnan h]
    decide
  · have hinfinite : x.isInfinite = true := by
      simp only [Double.isFinite, Double.isNaN, Double.isInfinite, decide_eq_true_eq,
        decide_eq_false_iff_not] at h hfinite ⊢
      omega
    have hx := Double.eq_of_isInfinite hinfinite
    unfold specialName
    rw [if_neg h]
    split at hx <;> rw [hx] <;> rfl

/-- A double is recovered, the infinite ones and the standard NaN from their names. -/
theorem decode_float {x : Double} (h : x.isNaN → x = Double.nan) :
    decode (encode (.float x)) = .ok (.float x) := by
  rw [encode]
  split
  · rw [decode]
  · rename_i hfinite
    have hspecial := special?_specialName (by simpa using hfinite) h
    rw [decode_tagged]
    simp [decodeObject, ofName?_name, decodeSpecial, Json.string?, hspecial]

/-- A date-time is recovered from its timestamp. -/
theorem decode_dateTime {t : DateTime} (h : 0 ≤ t.date.year) :
    decode (encode (.dateTime t)) = .ok (.dateTime t) := by
  rw [encode, decode_tagged, decodeObject.eq_2 _ _ (by simp)]
  simp only [ofName?_name, decodeDateTime, readDateTime, DateTime.read_write h]
  rfl

theorem decode_seq {items : List Value} (h : ∀ item ∈ items, decode item.encode = .ok item) :
    decode (encode (.seq items)) = .ok (.seq items) := by
  rw [encode, decode, decodeItems_encodeItems h]
  rfl

theorem decode_left {payload : Value} (h : decode payload.encode = .ok payload) :
    decode (encode (.left payload)) = .ok (.left payload) := by
  rw [encode, decode_tagged]
  unfold decodeObject
  simp only [ofName?_name, h]
  rfl

theorem decode_right {payload : Value} (h : decode payload.encode = .ok payload) :
    decode (encode (.right payload)) = .ok (.right payload) := by
  rw [encode, decode_tagged]
  unfold decodeObject
  simp only [ofName?_name, h]
  rfl

/-- A record is recovered: it is wrapped if one of its names could be taken for a tag. -/
theorem decode_record {fields : List (String × Value)}
    (h : ∀ field ∈ fields, decode field.2.encode = .ok field.2) :
    decode (encode (.record fields)) = .ok (.record fields) := by
  have hfields := decodeFields_encodeFields h
  rw [encode]
  split
  · rw [decode_tagged, decodeObject]
    simp only [ofName?_name, hfields]
    rfl
  · -- No field of the record is reserved, so none of its wire form is.
    rename_i hplain
    have hreserved : ∀ field ∈ encodeFields fields, isReserved field.1 = false := by
      intro field hfield
      obtain ⟨source, hsource, hname⟩ := exists_of_mem_encodeFields hfield
      rw [← hname]
      simpa using List.any_eq_false.1 (Bool.eq_false_iff.2 hplain) source hsource
    rw [decode_object hreserved, hfields]
    rfl

/-- The fields of a branded value are read as fields, whatever their names are. -/
theorem decode_branded {brand : String} {fields : List (String × Value)}
    (h : ∀ field ∈ fields, decode field.2.encode = .ok field.2) :
    decode (encode (.branded brand fields)) = .ok (.branded brand fields) := by
  have hdata : decodeData brand [(classField, .string brand), (dataField, .object
      (encodeFields fields))] = .ok fields := by
    unfold decodeData
    rw [if_neg (by decide), decodeData, if_pos rfl]
    exact decodeFields_encodeFields h
  rw [encode, decode, List.lookup_cons_self]
  simp only [decodeClass, bind, Except.bind, hdata]
  rfl

/-- A value is read back from its wire form unchanged, whatever its fields and brands are called. -/
theorem decode_encode (v : Value) (h : v.Portable) : decode v.encode = .ok v := by
  induction v using Value.induction with
  | unit => rw [encode, decode]
  | bool b => rw [encode, decode]
  | nat n => exact decode_nat n
  | float x => exact decode_float h
  | str s => rw [encode, decode]
  | dateTime t => exact decode_dateTime h
  | seq items ih =>
      exact decode_seq fun item hitem => ih item hitem (portableItems_iff.1 h item hitem)
  | record fields ih =>
      exact decode_record fun field hfield => ih field hfield (portableFields_iff.1 h field hfield)
  | left payload ih => exact decode_left (ih h)
  | right payload ih => exact decode_right (ih h)
  | branded brand fields ih =>
      exact decode_branded fun field hfield => ih field hfield (portableFields_iff.1 h field hfield)

/-- Fields that are called as the tags are, inside records and under a brand, stay fields. -/
theorem decode_encode_reservedNames :
    let newYear : DateTime :=
      ⟨Calendar.daysBeforeYear 2024 * Clock.nanosPerDay, -90, by decide, by decide⟩
    let order : Value := .branded "Order"
      [("$class", .float Double.negInfinity), ("$data", .dateTime newYear), ("$nat", .str "7")]
    let v : Value := .seq [.record [("$record", order)], .left (.record [("$nat", .nat (-7))]),
      .record [("$data", .float Double.nan), ("plain", .right (.record []))]]
    v.Portable ∧ decode v.encode = .ok v := by
  intro newYear order v
  have hportable : v.Portable := by
    simp only [v, order, Portable, PortableItems, PortableFields, and_true]
    decide
  exact ⟨hportable, decode_encode v hportable⟩

end Value

end ClauseEngine
