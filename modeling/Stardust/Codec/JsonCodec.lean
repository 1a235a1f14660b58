import Stardust.Core.Float64
import Stardust.Core.JsonNumbers
import Stardust.Core.Utf8
import Stardust.Uuid.Packing

/-!
# The JSON codec of WebSocket messages

A message is encoded by `json.Marshal` and decoded into a struct whose `Data` is an empty
interface, where every number becomes a float64. An int64 comes back as it was when it is a
53-bit integer times a power of two, and not otherwise. A string comes back as it was when it is
UTF-8, and not otherwise.
-/

namespace Stardust.Codec

open Stardust.Core Json

/-- The text that is written for a string, with U+FFFD for every octet that is not UTF-8. -/
def text (s : GoString) : String := String.ofList (Utf8.decode s)

/-- A number among the data of a message. -/
inductive Number where
  | int (n : Int64)
  /-- A finite float64, with the text that Go chooses for it. -/
  | float (shortest : Json.Numeral) (finite : (Float64.nearest shortest.value).isSome)
  /-- NaN or an infinity. -/
  | nonFinite

/-- A `Message`, with numbers of the kind `ν` in its data. -/
structure Message (ν : Type) where
  type : GoString
  data : Json GoString ν

/-- What `encoding/json` fails with. -/
inductive CodecError where
  | unsupportedValue
  | malformed
  | typeMismatch
  | outOfRange
  deriving DecidableEq

/-- The number as it is written, absent where encoding fails. -/
def Number.numeral : Number → Option Json.Numeral
  | .int n => some (.ofInt n.toInt)
  | .float shortest _ => some shortest
  | .nonFinite => none

/-- The text of a message. There is no text for NaN and the infinities. -/
def struct2Bytes (message : Message Number) : Except CodecError String :=
  match message.data.traverse text Number.numeral with
  | some data =>
    .ok (String.ofList (print (.obj [("type", .str (text message.type)), ("data", data)])))
  | none => .error .unsupportedValue

/-- Field names are compared without regard to case. -/
def foldName (name : String) : List Char := name.toList.map Char.toLower

/-- The message decoded so far, with the first error. -/
structure Decoding where
  result : Message ℚ
  err : Option CodecError

/-- The first error is kept. -/
def Decoding.saveError (d : Decoding) (e : CodecError) : Decoding :=
  { d with err := d.err.or (some e) }

/-- Store one member of the text in the field it names, if there is one. -/
def Decoding.store (d : Decoding) (name : String) (value : Json String ℚ) : Decoding :=
  if foldName name = ['t', 'y', 'p', 'e'] then
    match value with
    | .str s => { d with result := { type := bytes s, data := d.result.data } }
    | .null => d
    | _ => d.saveError .typeMismatch
  else if foldName name = ['d', 'a', 't', 'a'] then
    match value.traverse bytes Float64.nearest with
    | some data => { d with result := { type := d.result.type, data := data } }
    | none => d.saveError .outOfRange
  else d

/-- `json.Unmarshal` into a message. -/
def bytes2Struct (text : String) : Decoding :=
  let zero : Message ℚ := { type := [], data := .null }
  match parse text.toList with
  | none => { result := zero, err := some .malformed }
  | some .null => { result := zero, err := none }
  | some (.obj members) =>
    members.foldl (fun d m => d.store m.1 m.2) { result := zero, err := none }
  | some _ => { result := zero, err := some .typeMismatch }

/-- `JsonCodec.Decode`. -/
def decode (data : String) : Except CodecError (Message ℚ) :=
  match (bytes2Struct data).err with
  | some err => .error err
  | none => .ok (bytes2Struct data).result

/-- `JsonCodec.Encode`. -/
def encode (message : Message Number) : Except CodecError String := struct2Bytes message

/-- A number as it comes back. -/
def Number.received (n : Number) : Option ℚ := n.numeral.bind fun t => Float64.nearest t.value

/-- The message comes back with its type and with its integers in their places. -/
def KeepsIntegers (m : Message Number) : Prop :=
  ∃ r, (encode m >>= decode) = .ok r ∧ r.type = m.type ∧
    ∀ path n, lookup path m.data = some (.num (.int n)) →
      lookup path r.data = some (.num n.toInt)

private theorem bytes_text_iff (s : GoString) : bytes (text s) = s ↔ ∃ s', bytes s' = s := by
  constructor
  · exact fun h => ⟨_, h⟩
  · rintro ⟨s', rfl⟩
    rw [text, bytes, bytes, Utf8.decode_encode, String.toList_ofList]

private theorem Number.received_int (n : Int64) :
    (Number.int n).received = some (Float64.round n.toInt) := by
  have hlower := n.le_toInt
  have hupper := n.toInt_lt
  exact Float64.nearest_intCast (abs_le.mpr ⟨by omega, by omega⟩)

private theorem Number.isSome_received_iff (n : Number) : n.received.isSome ↔ n ≠ .nonFinite := by
  cases n with
  | int n => simp [Number.received_int]
  | float shortest finite => simpa [Number.received, Number.numeral] using finite
  | nonFinite => simp [Number.received, Number.numeral]

private theorem Number.isSome_numeral (n : Number) (h : n.received.isSome) : n.numeral.isSome := by
  cases n with
  | int | float => rfl
  | nonFinite => exact h

private theorem Decoding.store_type (d : Decoding) (s : String) :
    d.store "type" (.str s) = { d with result := { type := bytes s, data := d.result.data } } :=
  if_pos rfl

private theorem Decoding.store_data (d : Decoding) (value : Json String ℚ) :
    d.store "data" value =
      match value.traverse bytes Float64.nearest with
      | some data => { d with result := { type := d.result.type, data := data } }
      | none => d.saveError .outOfRange :=
  (if_neg (by decide)).trans (if_pos rfl)

/-- The text of a message is decoded field by field. -/
theorem bytes2Struct_print (type : String) (data : Json String Json.Numeral) :
    bytes2Struct (String.ofList (print (.obj [("type", .str type), ("data", data)]))) =
      if data.depth < maxDepth then
        match (data.map Json.Numeral.value).traverse bytes Float64.nearest with
        | some d => { result := { type := bytes type, data := d }, err := none }
        | none => { result := { type := bytes type, data := .null }, err := some .outOfRange }
      else { result := { type := [], data := .null }, err := some .malformed } := by
  have hdepth : (obj [("type", .str type), ("data", data)]).depth ≤ maxDepth ↔
      data.depth < maxDepth := by
    simp only [depth, depthMembers, Nat.max_zero, Nat.zero_max]
    exact Nat.succ_le_iff
  rw [bytes2Struct, String.toList_ofList, parse_print, if_congr hdepth rfl rfl]
  by_cases h : data.depth < maxDepth
  · rw [if_pos h, if_pos h]
    simp only [map, mapMembers, List.foldl_cons, List.foldl_nil, Decoding.store_type,
      Decoding.store_data, Decoding.saveError, Option.none_or]
  · rw [if_neg h, if_neg h]

/-- Data that cannot be written do not come back. -/
theorem traverse_received_of_unsupported {data : Json GoString Number}
    (h : data.traverse text Number.numeral = none) :
    data.traverse (fun s => bytes (text s)) Number.received = none := by
  rw [← Option.not_isSome_iff_eq_none, isSome_traverse_iff] at h ⊢
  exact fun hall => h fun n hn => n.isSome_numeral (hall n hn)

/-- A message is decoded when it is not nested too deeply and all its numbers can be written. -/
theorem decode_encode_ok_iff (m : Message Number) (r : Message ℚ) :
    (encode m >>= decode) = .ok r ↔
      m.data.depth < maxDepth ∧
        m.data.traverse (fun s => bytes (text s)) Number.received = some r.data ∧
        r.type = bytes (text m.type) := by
  cases hdata : m.data.traverse text Number.numeral with
  | none =>
    have hreceived := traverse_received_of_unsupported hdata
    simp [encode, struct2Bytes, hdata, hreceived, bind, Except.bind]
  | some data =>
    have hreceived : (data.map Json.Numeral.value).traverse bytes Float64.nearest =
        m.data.traverse (fun s => bytes (text s)) Number.received :=
      traverse_map_of_traverse _ _ _ hdata
    have hencode : (encode m >>= decode) = decode (String.ofList (print
        (.obj [("type", .str (text m.type)), ("data", data)]))) := by
      simp only [encode, struct2Bytes, hdata, bind, Except.bind]
    rw [hencode, decode, bytes2Struct_print, depth_of_traverse hdata, hreceived]
    by_cases hdepth : m.data.depth < maxDepth
    · rw [if_pos hdepth]
      cases m.data.traverse (fun s => bytes (text s)) Number.received with
      | none => simp
      | some d =>
        obtain ⟨type, back⟩ := r
        simp [hdepth, eq_comm, and_comm]
    · rw [if_neg hdepth]
      simp [hdepth]

/-- An integer that comes back is a float64. -/
theorem KeepsIntegers.representable {m : Message Number} (h : KeepsIntegers m)
    (hkeys : ∀ k ∈ m.data.keys, bytes (text k) = k) {path : List (Json.Step GoString)} {n : Int64}
    (hn : lookup path m.data = some (.num (.int n))) : Float64.Representable n.toInt := by
  obtain ⟨r, hr, -, hints⟩ := h
  obtain ⟨-, hdata, -⟩ := (decode_encode_ok_iff m r).mp hr
  obtain ⟨v, hv, hlookup⟩ := lookup_of_traverse hdata hkeys hn
  rw [Json.traverse, Number.received_int] at hv
  obtain rfl := Option.some.inj hv
  rw [hints path n hn] at hlookup
  rw [← Float64.round_eq_self_iff]
  simpa [eq_comm] using hlookup

/-- When the keys are UTF-8, the type and the integers come back if the type is UTF-8, all integers
are 53-bit integers times powers of two, and the data can be written and are not nested too
deeply. -/
theorem keepsIntegers_iff (m : Message Number) (hkeys : ∀ k ∈ m.data.keys, ∃ s, bytes s = k) :
    KeepsIntegers m ↔
      (∃ s, bytes s = m.type) ∧ (∀ n ∈ m.data.numbers, n ≠ .nonFinite) ∧
        m.data.depth < maxDepth ∧
        ∀ path n, lookup path m.data = some (.num (.int n)) →
          ∃ (a : ℤ) (k : ℕ), n.toInt = a * 2 ^ k ∧ |a| < 2 ^ 53 := by
  simp only [← bytes_text_iff] at hkeys ⊢
  simp only [← Float64.representable_intCast_iff, ← Number.isSome_received_iff,
    ← isSome_traverse_iff (fun s => bytes (text s))]
  constructor
  · rintro ⟨r, hr, hkept⟩
    obtain ⟨hdepth, hdata, htype⟩ := (decode_encode_ok_iff m r).mp hr
    exact ⟨htype.symm.trans hkept.1, by rw [hdata]; rfl, hdepth,
      fun _ _ hn => KeepsIntegers.representable ⟨r, hr, hkept⟩ hkeys hn⟩
  · rintro ⟨htype, hsome, hdepth, hints⟩
    obtain ⟨data, hdata⟩ := Option.isSome_iff_exists.mp hsome
    refine ⟨⟨m.type, data⟩, (decode_encode_ok_iff m _).mpr ⟨hdepth, hdata, htype.symm⟩, rfl, ?_⟩
    intro path n hn
    obtain ⟨v, hv, hlookup⟩ := lookup_of_traverse hdata hkeys hn
    have hround := (Float64.round_eq_self_iff _).mpr (hints path n hn)
    rw [Json.traverse, Number.received_int, hround] at hv
    obtain rfl := Option.some.inj hv
    exact hlookup

/-- A message about the order with an ID. -/
def order (id : Int64) : Message Number where
  type := bytes "order"
  data := .obj [(bytes "id", .num (.int id))]

/-- A small ID comes back, and so does a large one that ends in zeros. -/
theorem keepsIntegers_order : KeepsIntegers (order 7) ∧ KeepsIntegers (order (2 ^ 60)) := by
  have hkeys : ∀ id, ∀ k ∈ (order id).data.keys, ∃ s, bytes s = k := fun id k hk =>
    ⟨"id", (List.mem_singleton.mp hk).symm⟩
  have hfinite : ∀ id, ∀ n ∈ (order id).data.numbers, n ≠ .nonFinite := by
    intro id n hn
    rw [List.mem_singleton.mp hn]
    exact Number.noConfusion
  have hlookup : ∀ {id path n}, lookup path (order id).data = some (.num (.int n)) →
      n = id := by
    intro id path n h
    match path with
    | [.key k] =>
      by_cases hk : bytes "id" = k
      · simpa [order, lookup, member, hk] using h.symm
      · simp [order, lookup, member, hk] at h
    | .key k :: step :: path =>
      by_cases hk : bytes "id" = k <;> simp [order, lookup, member, hk] at h
  refine ⟨(keepsIntegers_iff _ (hkeys 7)).mpr ⟨⟨_, rfl⟩, hfinite 7, by decide, ?_⟩,
    (keepsIntegers_iff _ (hkeys _)).mpr ⟨⟨_, rfl⟩, hfinite _, by decide, ?_⟩⟩
  · exact fun path n hn => ⟨7, 0, by rw [hlookup hn]; rfl, by decide⟩
  · exact fun path n hn => ⟨1, 60, by rw [hlookup hn]; decide +kernel, by decide⟩

/-- An ID that is made 2 ^ 31 milliseconds, about 25 days, after the epoch. -/
def snowflake : Uuid.Stamp where
  offset := 2147483648
  worker := 1
  number := 1
  offset_range := by decide
  worker_range := by decide
  number_range := by decide

/-- The ID of an order comes back as its neighbour. -/
theorem decode_encode_snowflake :
    snowflake.id.toInt = 9007199254745089 ∧
      (encode (order snowflake.id) >>= decode) =
        .ok { type := bytes "order", data := .obj [(bytes "id", .num 9007199254745088)] } ∧
      ¬ KeepsIntegers (order snowflake.id) := by
  have hid : snowflake.id.toInt = 9007199254745089 := by
    rw [Uuid.Stamp.id_toInt]
    decide
  have hround : Float64.round 9007199254745089 = 9007199254745088 := by decide +kernel
  have hback : (encode (order snowflake.id) >>= decode) =
      .ok { type := bytes "order", data := .obj [(bytes "id", .num 9007199254745088)] } := by
    refine (decode_encode_ok_iff _ _).mpr ⟨by decide, ?_, rfl⟩
    simp [order, Json.traverse, traverseMembers, Number.received_int, hid, hround,
      (bytes_text_iff _).mpr ⟨"id", rfl⟩]
  refine ⟨hid, hback, ?_⟩
  rintro ⟨r, hr, -, hints⟩
  obtain rfl := Except.ok.inj (hback.symm.trans hr)
  have hkept := hints [.key (bytes "id")] snowflake.id rfl
  rw [hid] at hkept
  have hvalue : (9007199254745088 : ℚ) = ((9007199254745089 : ℤ) : ℚ) :=
    num.inj (Option.some.inj hkept)
  exact absurd hvalue (by norm_num)

end Stardust.Codec
