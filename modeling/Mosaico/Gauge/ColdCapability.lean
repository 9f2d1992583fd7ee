import Mosaico.Gauge.ColdProof
import Mosaico.Library.Der

/-! `mosaico_gauge_cold_capability.py`: the host's codec of the same payload. A binding is a
dictionary here; a check that fails raises. -/
namespace Mosaico.Gauge.ColdCapability

open WireLists
open ColdProof (ascii)

abbrev Text := List Char

/-- A Python object as far as the checks look; `other` is one of any further type. -/
inductive Value where
  | int (v : Int)
  | str (s : Text)
  | list (items : List Value)
  | dict (entries : List (Text × Value))
  | other

abbrev Dict := List (Text × Value)

def item (b : Dict) (key : String) : Value := (b.lookup key.toList).getD .other

def Value.isText : Value → String → Bool
  | .str s, t => s == t.toList
  | _, _ => false

def Value.isInt : Value → Int → Bool
  | .int v, w => v == w
  | _, _ => false

abbrev Checked := Except String

def require (ok : Bool) (reason : String) : Checked Unit := if ok then .ok () else .error reason

def contract : String :=
  "GCC1|ColdC65Once|GCT1source=70a767be|C=91336fc0|owned3|full131_backup|closed_ACK_only|" ++
  "sameboot_handoff_grace_ms=30000|armed_restore_trigger_ms=600000|armed_hard_ms=720000|" ++
  "newboot_capture_end_ms=60000|newboot_restore_hard_ms=120000|sdk_valid_two_signed_full_images|" ++
  "first_readonly|durable_claim_and_raw_before_restore|unknown_stop_no_retries|no_SOC_OCV_gain_EDV_writes|" ++
  "0091_exit_only|units_unknown|no_off_wallclock_guarantee|legacy_Failed_preserved"

def contractSha : List UInt8 := (Sha256.sha256 (ascii contract)).toList

abbrev bindingSize : Nat := 188
abbrev headerSize : Nat := 56
abbrev payloadMax : Nat := 1536
abbrev pairRawMax : Nat := 1050

def sessionDomain : List UInt8 := ascii "MOSAICO-GAUGE-COLD-CAP-v1\n"

def bindingKeys : List String :=
  ["mac", "device", "firmware", "build", "recovery", "source_crc", "target_crc",
    "original_gct_generation", "original_gct_epoch", "nonce", "slot_hashes", "contract_digest",
    "source131_receipt_digest", "capture_budget_ms"]

section Hex

def hexChar (d : Nat) : Char := Char.ofNat (if d < 10 then 48 + d else 87 + d)

def isHex (c : Char) : Bool := ('0' ≤ c && c ≤ '9') || ('a' ≤ c && c ≤ 'f')

def hexValue (c : Char) : Nat := if c ≤ '9' then c.toNat - 48 else c.toNat - 87

def hex (bytes : List UInt8) : Text :=
  bytes.flatMap fun b => [hexChar (b.toNat / 16), hexChar (b.toNat % 16)]

def fromHex : Text → List UInt8
  | h :: l :: rest => UInt8.ofNat (hexValue h * 16 + hexValue l) :: fromHex rest
  | _ => []

def hexNumber (width v : Nat) : Text :=
  let digits := (Nat.digits 16 v).reverse.map hexChar
  List.replicate (width - digits.length) '0' ++ digits

def integer (value : Value) (low high : Int) : Checked Int :=
  match value with
  | .int v => do
    require (decide (low ≤ v ∧ v ≤ high)) "integer domain"
    return v
  | _ => .error "integer domain"

def hexbytes (value : Value) (length : Nat) (nonzero : Bool := false) : Checked (List UInt8) :=
  match value with
  | .str s => do
    require (s.length == 2 * length && s.all isHex) "canonical lowercase hex required"
    let out := fromHex s
    require (!nonzero || out.any fun v => v != 0) "nonzero binding required"
    return out
  | _ => .error "canonical lowercase hex required"

end Hex

section Binding

def allKeys (b : Dict) : Bool :=
  (b.all fun entry => bindingKeys.any fun key => key.toList == entry.1) &&
    bindingKeys.all fun key => (b.lookup key.toList).isSome

def slotHashes (b : Dict) : Checked (List UInt8 × List UInt8) :=
  match item b "slot_hashes" with
  | .list [first, second] => do
    return (← hexbytes first 32 true, ← hexbytes second 32 true)
  | _ => .error "two ordered BIN hashes required"

def validateBinding (binding : Value) : Checked Dict :=
  match binding with
  | .dict b => do
    require (allKeys b) "complete explicit Binding fields required"
    let mac ← hexbytes (item b "mac") 6 true
    require (mac.getD 0 0 &&& 1 == 0 && (item b "device").isText "0220" &&
        (item b "firmware").isText "0003" && (item b "build").isInt 4 && (item b "recovery").isInt 1)
      "production unicast/known gauge/SlotHashes binding required"
    require ((item b "source_crc").isText "70a767be" && (item b "target_crc").isText "91336fc0")
      "fixed source/C profile only"
    let _ ← integer (item b "original_gct_generation") 1 (0xffffffff - 4)
    let _ ← integer (item b "original_gct_epoch") 1 (0xffffffffffffffff - 4)
    let _ ← integer (item b "capture_budget_ms") 1 60000
    let _ ← hexbytes (item b "nonce") 16 true
    let slots ← slotHashes b
    let reason := "distinct SlotHashes and zero unused contract field"
    require (slots.1 != slots.2) reason
    let digest ← hexbytes (item b "contract_digest") 32
    require (digest == List.replicate 32 0) reason
    let _ ← hexbytes (item b "source131_receipt_digest") 32 true
    return b
  | _ => .error "complete explicit Binding fields required"

def Value.bytes : Value → List UInt8
  | .str s => fromHex s
  | .list items => items.flatMap fun v => match v with
    | .str s => fromHex s
    | _ => []
  | _ => []

def Value.number : Value → Nat
  | .int v => v.toNat
  | _ => 0

def bindingHeader : List UInt8 := ascii "GCB1" ++ le 2 1 ++ le 2 bindingSize

def encodeBinding (binding : Value) : Checked (List UInt8) := do
  let b ← validateBinding binding
  let body := (item b "mac").bytes ++ le 2 0x0220 ++ le 2 3 ++ le 1 4 ++ le 1 1 ++
    le 4 0x70a767be ++ le 4 0x91336fc0 ++ le 4 (item b "original_gct_generation").number ++
    le 8 (item b "original_gct_epoch").number ++ (item b "nonce").bytes ++
    (item b "slot_hashes").bytes ++ (item b "contract_digest").bytes ++
    (item b "source131_receipt_digest").bytes ++ le 4 (item b "capture_budget_ms").number
  require (body.length == 180) "Binding body size"
  return bindingHeader ++ body

def bindingWidths : List Nat := [6, 2, 2, 1, 1, 4, 4, 4, 8, 16, 32, 32, 32, 32, 4]

def bindingDict (field : Nat → List UInt8) : Dict :=
  (bindingKeys.map String.toList).zip [
    .str (hex (field 0)), .str (hexNumber 4 (leValue (field 1))),
    .str (hexNumber 4 (leValue (field 2))), .int (leValue (field 3)), .int (leValue (field 4)),
    .str (hexNumber 8 (leValue (field 5))), .str (hexNumber 8 (leValue (field 6))),
    .int (leValue (field 7)), .int (leValue (field 8)), .str (hex (field 9)),
    .list [.str (hex (field 10)), .str (hex (field 11))], .str (hex (field 12)),
    .str (hex (field 13)), .int (leValue (field 14))]

def decodeBinding (wire : List UInt8) : Checked Dict := do
  require (wire.length == bindingSize && wire.take 8 == bindingHeader) "Binding header/length"
  let fields := cut bindingWidths (wire.drop 8)
  let b := bindingDict fun i => fields.getD i []
  let again ← encodeBinding (.dict b)
  require (again == wire) "noncanonical Binding alias"
  return b

end Binding

section Payload

/-- `utils` of the signature library; bytes that it does not parse have no value. -/
structure DssUtils where
  decodeDssSignature : List UInt8 → Option (Int × Int)
  encodeDssSignature : Int → Int → List UInt8

/-- The DER form of a sequence of two positive integers is what it writes, and it reads that. -/
structure DssUtils.Documented (utils : DssUtils) : Prop where
  encodes {r s : Nat} (first : 0 < r) (second : 0 < s) : utils.encodeDssSignature r s = Der.pair r s
  decodes {r s : Nat} (first : 0 < r) (second : 0 < s) (short : (Der.pair r s).length ≤ 72) :
    utils.decodeDssSignature (Der.pair r s) = some ((r : Int), (s : Int))

variable (utils : DssUtils)

def der (signature : List UInt8) : Checked (List UInt8) := do
  require (decide (8 ≤ signature.length) && decide (signature.length ≤ 72)) "P256 DER length"
  match utils.decodeDssSignature signature with
  | some (r, s) =>
    require (decide (0 < r) && decide (0 < s) && utils.encodeDssSignature r s == signature) "canonical DER required"
    return signature
  | none => .error "error parsing asn1 value"

def sessionMessage (bindingWire pairRaw : List UInt8) : Checked (List UInt8) := do
  let _ ← decodeBinding bindingWire
  require (decide (0 < pairRaw.length) && decide (pairRaw.length ≤ pairRawMax)) "pair raw bounds"
  return sessionDomain ++ contractSha ++ (Sha256.sha256 bindingWire).toList ++
    (Sha256.sha256 pairRaw).toList

def packPayload (bindingWire pairRaw signature : List UInt8) : Checked (List UInt8) := do
  let _ ← sessionMessage bindingWire pairRaw
  let _ ← der utils signature
  let size := headerSize + bindingWire.length + pairRaw.length + signature.length
  require (decide (size ≤ payloadMax)) "NAND payload exceeds1536"
  return ascii "GCP1" ++ le 2 1 ++ le 2 headerSize ++ le 2 size ++ le 2 bindingSize ++
    le 2 pairRaw.length ++ le 2 signature.length ++ contractSha ++ List.replicate 8 0 ++
    bindingWire ++ pairRaw ++ signature

def headerWidths : List Nat := [4, 2, 2, 2, 2, 2, 2, 32, 8]

structure Decoded where
  binding : Dict
  bindingWire : List UInt8
  pairRaw : List UInt8
  signature : List UInt8

def decodePayload (payload : List UInt8) : Checked Decoded := do
  require (decide (headerSize ≤ payload.length) && decide (payload.length ≤ payloadMax)) "payload bounds"
  let fields := cut headerWidths payload
  let field := fun i => fields.getD i []
  let pairSize := leValue (field 5)
  let sigSize := leValue (field 6)
  require (field 0 == ascii "GCP1" && leValue (field 1) == 1 && leValue (field 2) == headerSize &&
      leValue (field 4) == bindingSize && field 7 == contractSha && field 8 == List.replicate 8 0 &&
      decide (0 < pairSize) && decide (pairSize ≤ pairRawMax) && decide (8 ≤ sigSize) &&
      decide (sigSize ≤ 72) && leValue (field 3) == payload.length &&
      payload.length == headerSize + bindingSize + pairSize + sigSize)
    "exact canonical payload header/EOF required"
  let bindingWire := (payload.drop headerSize).take bindingSize
  let pairRaw := (payload.drop (headerSize + bindingSize)).take pairSize
  let binding ← decodeBinding bindingWire
  let signature ← der utils (payload.drop (payload.length - sigSize))
  return { binding, bindingWire, pairRaw, signature }

end Payload

end Mosaico.Gauge.ColdCapability
