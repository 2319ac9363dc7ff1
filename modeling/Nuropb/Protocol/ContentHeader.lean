import Nuropb.Python.Conversion
import Nuropb.Transport.FieldRoundTrip

/-! # Content headers

A header is class, weight, body size, property flags and the flagged properties in a fixed
order. The fourteen properties share four formats.
-/
namespace Nuropb

open Library Transport

inductive PropertyFormat
  | shortstr
  | table
  | octet
  | timestamp

namespace PropertyName

/-- The properties in the order of the header, from flag bit 15 downwards. -/
def all : List PropertyName :=
  [.contentType, .contentEncoding, .headers, .deliveryMode, .priority, .correlationId, .replyTo,
    .expiration, .messageId, .timestamp, .type, .userId, .appId, .clusterId]

def bit : PropertyName → Nat
  | .contentType => 15
  | .contentEncoding => 14
  | .headers => 13
  | .deliveryMode => 12
  | .priority => 11
  | .correlationId => 10
  | .replyTo => 9
  | .expiration => 8
  | .messageId => 7
  | .timestamp => 6
  | .type => 5
  | .userId => 4
  | .appId => 3
  | .clusterId => 2

def format : PropertyName → PropertyFormat
  | .headers => .table
  | .deliveryMode | .priority => .octet
  | .timestamp => .timestamp
  | _ => .shortstr

theorem mem_all (name : PropertyName) : name ∈ all := by
  cases name <;> decide

theorem bit_injective {a b : PropertyName} (h : bit a = bit b) : a = b := by
  cases a <;> cases b <;> first | rfl | cases h

theorem bit_lt (name : PropertyName) : bit name < 16 := by
  cases name <;> decide

end PropertyName

namespace Protocol

section Writing

variable (python : Interpreter)

def encodeProperty : PropertyFormat → PyVal → Except Exc Bytes
  | .shortstr, value => encodeShortstrValue value
  | .table, value => encodeTableValue python.decimals value
  | .octet, value => do
    let n ← python.builtins.int value
    singleByte n
  | .timestamp, .datetime posix => toBytes 8 posix
  | .timestamp, value => do
    let n ← python.builtins.int value
    toBytes 8 n

/-- Flags and content of the listed properties. -/
def encodeProperties (props : Properties) : List PropertyName → Except Exc (Nat × Bytes)
  | [] => .ok (0, [])
  | name :: rest =>
    match props name with
    | none => encodeProperties props rest
    | some value => do
      let raw ← encodeProperty python name.format value
      let (flags, propBody) ← encodeProperties props rest
      return (2 ^ name.bit ||| flags, raw ++ propBody)

def encodeContentHeader (classId bodySize : Nat) (props : Properties) : Except Exc Bytes := do
  let (flags, propBody) ← encodeProperties python props PropertyName.all
  let rawClass ← toBytes 2 classId
  let rawSize ← toBytes 8 bodySize
  let rawFlags ← toBytes 2 flags
  return rawClass ++ toBE 2 0 ++ rawSize ++ rawFlags ++ propBody

end Writing

def decodeProperty (payload : Bytes) (offset : Nat) : PropertyFormat → Except Exc (PyVal × Nat)
  | .shortstr => do
    let (text, next) ← decodeShortstr payload offset
    return (.str text, next)
  | .table => do
    let (table, next) ← decodeTable payload tableRoom offset
    return (.dict table, next)
  | .octet => do
    let octet ← orRaise .indexError payload[offset]?
    return (.int octet.toNat, offset + 1)
  | .timestamp => do
    raiseIf (payload.length < offset + 8) (.amqpCodecError "truncated timestamp")
    return (.int (ofBE (slice payload offset (offset + 8))), offset + 8)

def decodeProperties (payload : Bytes) (flags : Nat) :
    List PropertyName → (offset : Nat) → Properties → Except Exc Properties
  | [], _, props => .ok props
  | name :: rest, offset, props =>
    if flags.testBit name.bit then do
      let (value, next) ← decodeProperty payload offset name.format
      decodeProperties payload flags rest next (props.set name value)
    else decodeProperties payload flags rest offset props

structure ContentHeader where
  classId : Nat
  bodySize : Nat
  properties : Properties

def decodeContentHeader (payload : Bytes) : Except Exc ContentHeader := do
  raiseIf (payload.length < 14) (.amqpCodecError "content header too short")
  let classId := ofBE (slice payload 0 2)
  let bodySize := ofBE (slice payload 4 12)
  let flags := ofBE (slice payload 12 14)
  let properties ← decodeProperties payload flags PropertyName.all 14 .empty
  return ⟨classId, bodySize, properties⟩

/-! ## What a reader gets for written properties -/

section Images

variable (python : Interpreter)

def propertyImage : PropertyFormat → PyVal → Option PyVal
  | .shortstr, value => some value
  | .table, .dict entries => (wireTable python.decimals 0 tableRoom entries).map .dict
  | .timestamp, .datetime posix => some (.int posix)
  | _, value => (python.builtins.int value).toOption.map .int

def imageProperties (props : Properties) : List PropertyName → Properties → Option Properties
  | [], image => some image
  | name :: rest, image =>
    match props name with
    | none => imageProperties props rest image
    | some value =>
      (propertyImage python name.format value).bind fun w =>
        imageProperties props rest (image.set name w)

def propertyReadsBack : PropertyFormat → PyVal → Bool
  | .shortstr, .str _ => true
  | .table, .dict entries => tableReadsBack python.decimals 0 tableRoom entries
  | .octet, .int _ | .timestamp, .int _ => true
  | _, _ => false

/-- Every property has the type its reader gives it, and the headers read back. -/
def propertiesReadBack (props : Properties) : Bool :=
  PropertyName.all.all fun name =>
    match props name with
    | none => true
    | some value => propertyReadsBack python name.format value

end Images

variable {python : Interpreter}

theorem exists_of_singleByte {n : Int} {raw : Bytes} (h : singleByte n = .ok raw) :
    ∃ b : UInt8, raw = [b] ∧ (b.toNat : Int) = n := by
  unfold singleByte at h
  split at h
  · cases h
    refine ⟨_, rfl, ?_⟩
    simp
    omega
  · cases h

theorem decodeProperty_timestamp {n : Int} {raw : Bytes} (henc : toBytes 8 n = .ok raw)
    (p s : Bytes) : decodeProperty (p ++ (raw ++ s)) p.length .timestamp =
      .ok (.int n, p.length + raw.length) := by
  obtain ⟨k, rfl⟩ := natCast_of_toBytes henc
  obtain ⟨hlt, rfl⟩ := toBytes_natCast_eq_ok.mp henc
  have hlen : ¬(p ++ (toBE 8 k ++ s)).length < p.length + 8 := by simp
  simp only [decodeProperty, raiseIf_of_not hlen, ok_bind,
    slice_append_of_length p _ s (length_toBE 8 k), ofBE_toBE hlt, pure_eq_ok, length_toBE]

theorem toOption_decodeProperty {format : PropertyFormat} {value : PyVal} {raw : Bytes}
    (henc : encodeProperty python format value = .ok raw) (p s : Bytes) :
    (decodeProperty (p ++ (raw ++ s)) p.length format).toOption =
      (propertyImage python format value).map fun w => (w, p.length + raw.length) := by
  cases format with
  | shortstr =>
    cases value with
    | str t =>
      rw [decodeProperty, decodeShortstr_encodeShortstr henc]
      rfl
    | _ => cases henc
  | table =>
    cases value with
    | dict entries =>
      rw [decodeProperty, toOption_bind, toOption_decodeTable henc]
      simp only [propertyImage]
      cases wireTable python.decimals 0 tableRoom entries <;> rfl
    | _ => cases henc
  | octet =>
    obtain ⟨n, hn, hbyte⟩ := bind_eq_ok.mp henc
    obtain ⟨b, rfl, hb⟩ := exists_of_singleByte hbyte
    simp [decodeProperty, propertyImage, hn, hb]
  | timestamp =>
    cases value with
    | datetime posix =>
      rw [decodeProperty_timestamp henc]
      rfl
    | _ =>
      obtain ⟨n, hn, hraw⟩ := bind_eq_ok.mp henc
      rw [decodeProperty_timestamp hraw]
      simp [propertyImage, hn]

theorem testBit_flags {props : Properties} {names : List PropertyName} {flags : Nat} {body : Bytes}
    (henc : encodeProperties python props names = .ok (flags, body)) (i : Nat) :
    flags.testBit i = true ↔ ∃ name ∈ names, (props name).isSome ∧ name.bit = i := by
  induction names generalizing flags body with
  | nil =>
    cases henc
    simp
  | cons name rest ih =>
    rw [encodeProperties] at henc
    split at henc
    · rename_i hnone
      rw [ih henc]
      simp [hnone]
    · rename_i value hsome
      obtain ⟨raw, -, henc⟩ := bind_eq_ok.mp henc
      obtain ⟨⟨restFlags, restBody⟩, hrest, henc⟩ := bind_eq_ok.mp henc
      cases henc
      rw [Nat.testBit_or, Bool.or_eq_true, ih hrest, Nat.testBit_two_pow]
      simp [hsome]

theorem toOption_decodeProperties {props : Properties} {names : List PropertyName}
    {encFlags flags : Nat} {body : Bytes}
    (henc : encodeProperties python props names = .ok (encFlags, body))
    (hflags : ∀ name ∈ names, flags.testBit name.bit = (props name).isSome) (p s : Bytes)
    (image : Properties) :
    (decodeProperties (p ++ (body ++ s)) flags names p.length image).toOption =
      imageProperties python props names image := by
  induction names generalizing encFlags body p image with
  | nil => rfl
  | cons name rest ih =>
    have hbit := hflags name List.mem_cons_self
    have hrestFlags : ∀ other ∈ rest, flags.testBit other.bit = (props other).isSome :=
      fun other hother => hflags other (List.mem_cons_of_mem _ hother)
    rw [encodeProperties] at henc
    rw [decodeProperties, imageProperties]
    split at henc
    · rename_i hnone
      rw [hnone, Option.isSome_none] at hbit
      rw [hbit, if_neg Bool.false_ne_true]
      exact ih henc hrestFlags p image
    · rename_i value hsome
      obtain ⟨raw, hraw, henc⟩ := bind_eq_ok.mp henc
      obtain ⟨⟨restFlags, restBody⟩, hrest, henc⟩ := bind_eq_ok.mp henc
      cases henc
      rw [hsome, Option.isSome_some] at hbit
      rw [hbit, if_pos rfl, toOption_bind, List.append_assoc, toOption_decodeProperty hraw]
      cases propertyImage python name.format value with
      | none => rfl
      | some w =>
        have hnext := ih hrest hrestFlags (p ++ raw) (image.set name w)
        rw [List.append_assoc, List.length_append] at hnext
        exact hnext

/-- The image of a dictionary: each property is its own image or absent, the others are kept. -/
theorem imageProperties_eq_some_iff {props image out : Properties} {names : List PropertyName}
    (hnodup : names.Nodup) : imageProperties python props names image = some out ↔
      ∀ name, match if name ∈ names then props name else none with
        | none => out name = image name
        | some value => ∃ w, propertyImage python name.format value = some w ∧ out name = some w := by
  induction names generalizing image with
  | nil =>
    simp only [imageProperties, Option.some.injEq, List.not_mem_nil, if_false, funext_iff]
    exact forall_congr' fun _ => eq_comm
  | cons first rest ih =>
    obtain ⟨hfirst, hrest⟩ := List.nodup_cons.mp hnodup
    rw [imageProperties]
    cases hprop : props first with
    | none =>
      rw [ih hrest]
      refine forall_congr' fun name => ?_
      by_cases heq : name = first
      · subst heq
        simp [hfirst, hprop]
      · simp [heq]
    | some value =>
      have hset (w : PyVal) (name : PropertyName) :
          (match if name ∈ rest then props name else none with
            | none => out name = image.set first w name
            | some v => ∃ x, propertyImage python name.format v = some x ∧ out name = some x) ↔
          if name = first then out name = some w else
            match if name ∈ first :: rest then props name else none with
            | none => out name = image name
            | some v => ∃ x, propertyImage python name.format v = some x ∧ out name = some x := by
        by_cases heq : name = first
        · subst heq
          simp [hfirst, Properties.set]
        · simp [heq, Properties.set]
      rw [Option.bind_eq_some_iff]
      simp only [ih hrest, hset]
      constructor
      · rintro ⟨w, hw, hall⟩ name
        have hname := hall name
        by_cases heq : name = first
        · subst heq
          rw [if_pos rfl] at hname
          simp [hprop, hw, hname]
        · rwa [if_neg heq] at hname
      · intro hall
        have hhead := hall first
        simp only [List.mem_cons_self, if_true, hprop] at hhead
        obtain ⟨w, hw, hout⟩ := hhead
        refine ⟨w, hw, fun name => ?_⟩
        by_cases heq : name = first
        · rw [if_pos heq, heq, hout]
        · rw [if_neg heq]
          exact hall name

theorem encodeProperty_of_encodeProperties {props : Properties} {names : List PropertyName}
    {flags : Nat} {body : Bytes} (henc : encodeProperties python props names = .ok (flags, body))
    {name : PropertyName} (hmem : name ∈ names) {value : PyVal} (hprop : props name = some value) :
    ∃ raw, encodeProperty python name.format value = .ok raw := by
  induction names generalizing flags body with
  | nil => cases hmem
  | cons first rest ih =>
    rw [encodeProperties] at henc
    split at henc
    · rename_i hnone
      rcases List.mem_cons.mp hmem with rfl | hrest
      · cases hnone.symm.trans hprop
      · exact ih henc hrest
    · rename_i v hsome
      obtain ⟨raw, hraw, henc⟩ := bind_eq_ok.mp henc
      obtain ⟨⟨restFlags, restBody⟩, hrest, -⟩ := bind_eq_ok.mp henc
      rcases List.mem_cons.mp hmem with rfl | hmem
      · cases hsome.symm.trans hprop
        exact ⟨raw, hraw⟩
      · exact ih hrest hmem

theorem propertyImage_eq_some_iff {format : PropertyFormat} {value : PyVal} {raw : Bytes}
    (henc : encodeProperty python format value = .ok raw) :
    propertyImage python format value = some value ↔ propertyReadsBack python format value := by
  cases format with
  | shortstr => cases value <;> simp_all [encodeProperty, encodeShortstrValue, propertyImage,
      propertyReadsBack]
  | table =>
    cases value with
    | dict entries => simp [propertyImage, propertyReadsBack, ← wireTable_eq_some_iff]
    | _ => cases henc
  | octet =>
    obtain ⟨n, hn, -⟩ := bind_eq_ok.mp henc
    cases value <;> simp_all [propertyImage, propertyReadsBack, Builtins.int, pyInt]
  | timestamp =>
    cases value with
    | datetime posix => simp [propertyImage, propertyReadsBack]
    | _ =>
      obtain ⟨n, hn, -⟩ := bind_eq_ok.mp henc
      simp_all [propertyImage, propertyReadsBack, Builtins.int, pyInt]

theorem imageProperties_eq_some_iff_readsBack {props : Properties} {flags : Nat} {body : Bytes}
    (henc : encodeProperties python props PropertyName.all = .ok (flags, body)) :
    imageProperties python props PropertyName.all .empty = some props ↔ propertiesReadBack python props := by
  rw [imageProperties_eq_some_iff (by decide), propertiesReadBack, List.all_eq_true]
  refine forall_congr' fun name => ?_
  simp only [PropertyName.mem_all, if_true, forall_const]
  cases hprop : props name with
  | none => simp [Properties.empty]
  | some value =>
    obtain ⟨raw, hraw⟩ := encodeProperty_of_encodeProperties henc (PropertyName.mem_all name) hprop
    rw [← propertyImage_eq_some_iff hraw]
    simp [eq_comm]

/-- A written header is read with its class, its body size and the image of its properties. -/
theorem toOption_decodeContentHeader {classId bodySize : Nat} {props : Properties} {header : Bytes}
    (henc : encodeContentHeader python classId bodySize props = .ok header) :
    (decodeContentHeader header).toOption =
      (imageProperties python props PropertyName.all .empty).map fun image => ⟨classId, bodySize, image⟩ := by
  obtain ⟨⟨flags, body⟩, hprops, henc⟩ := bind_eq_ok.mp henc
  obtain ⟨rawClass, hclass, henc⟩ := bind_eq_ok.mp henc
  obtain ⟨rawSize, hsize, henc⟩ := bind_eq_ok.mp henc
  obtain ⟨rawFlags, hflags, henc⟩ := bind_eq_ok.mp henc
  obtain ⟨hclassLt, rfl⟩ := toBytes_natCast_eq_ok.mp hclass
  obtain ⟨hsizeLt, rfl⟩ := toBytes_natCast_eq_ok.mp hsize
  obtain ⟨hflagsLt, rfl⟩ := toBytes_natCast_eq_ok.mp hflags
  cases henc
  have hlen : ¬(toBE 2 classId ++ (toBE 2 0 ++ (toBE 8 bodySize ++ (toBE 2 flags ++ body)))).length <
      14 := by
    simp
    omega
  have hbits : ∀ name ∈ PropertyName.all, flags.testBit name.bit = (props name).isSome := by
    intro name hname
    rw [Bool.eq_iff_iff, testBit_flags hprops]
    constructor
    · rintro ⟨other, -, hsome, hbit⟩
      rwa [PropertyName.bit_injective hbit] at hsome
    · intro hsome
      exact ⟨name, hname, hsome, rfl⟩
  have hread := toOption_decodeProperties hprops hbits
    (toBE 2 classId ++ toBE 2 0 ++ toBE 8 bodySize ++ toBE 2 flags) [] .empty
  have hfields (w : Nat) (p m s : Bytes) (n : Nat) (hm : n < 256 ^ w) (hp : m = toBE w n) :
      ofBE (slice (p ++ (m ++ s)) p.length (p.length + w)) = n := by
    subst hp
    rw [slice_append_of_length p _ s (length_toBE w n), ofBE_toBE hm]
  have hc := hfields 2 [] _ (toBE 2 0 ++ toBE 8 bodySize ++ toBE 2 flags ++ body) classId hclassLt rfl
  have hs := hfields 8 (toBE 2 classId ++ toBE 2 0) _ (toBE 2 flags ++ body) bodySize hsizeLt rfl
  have hf := hfields 2 (toBE 2 classId ++ toBE 2 0 ++ toBE 8 bodySize) _ body flags hflagsLt rfl
  simp only [List.append_assoc, List.nil_append, List.append_nil, List.length_append, length_toBE,
    List.length_nil, Nat.zero_add, Nat.reduceAdd] at hread hc hs hf ⊢
  rw [decodeContentHeader, raiseIf_of_not hlen, ok_bind]
  simp only [hc, hs, hf, toOption_bind, hread]
  cases imageProperties python props PropertyName.all .empty <;> rfl

end Protocol

end Nuropb
