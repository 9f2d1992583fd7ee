import Mosaico.Gauge.ColdCapsule
import Mosaico.Gauge.ColdEvidence
import Mosaico.Gauge.ColdReach

/-! `mosaico_gauge_cold_envelope.h`: metadata and up to two frames of raw evidence in one
record of the cold store. The hasher is a parameter; the workspace and the aliasing of
its arguments have no counterpart here, where arguments are values. -/
namespace Mosaico.Gauge.ColdEnvelope

open ByteFields ColdTrial ColdCapsule
open ColdEvidence (Frame Wire Kind)

abbrev headerSize : Nat := 48
abbrev rawOffset : Nat := headerSize + ColdCapsule.wireSize
abbrev maxFrames : Nat := 2
abbrev magic : Nat := 0x31454342
abbrev allRaw : UInt32 := 0xfff

abbrev Frames := Vector Wire maxFrames
abbrev Hasher := List UInt8 → Option Digest

structure Decoded where
  metadata : Record := {}
  frames : Frames := Vector.replicate maxFrames (zero _)
  count : Nat := 0
  rawHash : Digest := zeros 32
  deriving DecidableEq

def sameNonce (f : Frame) (token : BootToken) : Bool :=
  token.verified && f.bootNonce == token.nonce

def beWord {n : Nat} (p : ByteFields.Bytes n) (o : Nat) : Nat :=
  (byteAt p o).toNat * 256 + (byteAt p (o + 1)).toNat

def completeRead (f : Frame) : Bool :=
  f.standard.validMask &&& allRaw == allRaw && f.engine.validMask == 0x1fff &&
    f.engine.echo73 == 0x73 && f.engine.echo76 == 0x76 && f.engine.echo02 == 2 &&
    beWord f.engine.rawIdentity 0 == 0x0220 && beWord f.engine.rawIdentity 2 == 3 &&
    beWord f.engine.rawIdentity 4 == 4

def limitMs (r : Record) : Nat := min (r.claimMs + r.binding.captureBudgetMs) resumedCaptureLimitMs

def beforeLimit (r : Record) (f : Frame) : Bool :=
  decide (f.standard.sampledUs.toNat < limitMs r * 1000) &&
    decide (f.engine.sampledUs.toNat < limitMs r * 1000)

def afterClaim (r : Record) (f : Frame) : Bool :=
  decide (r.claimMs * 1000 ≤ f.standard.sampledUs.toNat) &&
    decide (r.claimMs * 1000 ≤ f.engine.sampledUs.toNat)

def ordered (first last : Frame) : Bool :=
  decide (first.standard.sampledUs ≤ last.standard.sampledUs) &&
    decide (first.standard.sampledUs ≤ last.engine.sampledUs) &&
    decide (first.engine.sampledUs ≤ last.standard.sampledUs) &&
    decide (first.engine.sampledUs ≤ last.engine.sampledUs)

def successRules (d : Decoded) (first last : Frame) : Bool :=
  let r := d.metadata
  d.count == 2 && first.kind == .initial && last.kind == .final &&
    sameNonce first r.claimedBoot && sameNonce last r.claimedBoot && completeRead first &&
    completeRead last && beforeLimit r first && beforeLimit r last && afterClaim r last &&
    ordered first last

def failureRules (d : Decoded) (first last : Frame) : Bool :=
  let r := d.metadata
  knownFailure r.capture && last.kind == .failure &&
    (d.count != 2 || (first.kind == .initial && sameNonce first r.claimedBoot)) &&
    match r.capture with
    | .interrupted => last.bootNonce != r.armedBoot.nonce
    | .rejectedStartup | .startupWindowExpired =>
      d.count == 1 && last.bootNonce != r.armedBoot.nonce
    | _ => sameNonce last r.claimedBoot

def evidenceRules (d : Decoded) (first last : Frame) : Bool :=
  let r := d.metadata
  match r.capture with
  | .none => (r.phase == .captureClaimed || r.phase == .blockedUnknown) && d.count == 1 &&
      first.kind == .initial && sameNonce first r.claimedBoot
  | .success => r.evidenceDigest == d.rawHash && successRules d first last
  | _ => r.evidenceDigest == d.rawHash && failureRules d first last

def firstFrame (d : Decoded) : Option Frame := ColdEvidence.decode d.frames[0]

def lastFrame (d : Decoded) : Option Frame :=
  ColdEvidence.decode (if d.count = 2 then d.frames[1] else d.frames[0])

def frameRules (d : Decoded) : Bool :=
  if d.count = 0 then d.metadata.capture == .none && !nonzero d.rawHash
  else if maxFrames < d.count ∨ !nonzero d.rawHash then false
  else match firstFrame d, lastFrame d with
    | some first, some last => evidenceRules d first last
    | _, _ => false

def rawBytes (s : StoreRecord) (count : Nat) : List UInt8 :=
  (s.payload.toList.drop rawOffset).take (count * ColdEvidence.wireSize)

def rawDigest (s : StoreRecord) (count : Nat) (hash : Hasher) : Option Digest :=
  if maxFrames < count then none
  else if count = 0 then some (zeros 32)
  else hash (rawBytes s count)

def payloadSize (count : Nat) : Nat := rawOffset + count * ColdEvidence.wireSize

def encodeInto (metadata : Record) (frames : Frames) (count : Nat) (expected : Binding)
    (bindingDigest : Digest) (hash : Hasher) : Option StoreRecord := do
  if maxFrames < count then none
  let inner ← ColdCapsule.encode metadata expected bindingDigest
  let p := put (put (put (zero Nand.ColdStore.payloadMax) 0 magic 4) 4 1 2) 6 headerSize 2
  let p := put (put (put p 8 ColdCapsule.wireSize 2) 10 ColdEvidence.wireSize 2) 12 count 1
  let p := blit p headerSize inner.payload ColdCapsule.wireSize
  let p := if 0 < count then blit p rawOffset frames[0] ColdEvidence.wireSize else p
  let p :=
    if 1 < count then blit p (rawOffset + ColdEvidence.wireSize) frames[1] ColdEvidence.wireSize
    else p
  let staged := { inner with size := .ofNat (payloadSize count), payload := p }
  let rawHash ← rawDigest staged count hash
  let staged := { staged with payload := blit p 16 rawHash 32 }
  let d : Decoded := { metadata := metadata, frames := frames, count := count, rawHash := rawHash }
  if !Nand.ColdStore.shape staged ∨ !frameRules d then none else some staged

def innerOf (s : StoreRecord) : StoreRecord :=
  { s with size := .ofNat ColdCapsule.wireSize,
           payload := slice s.payload headerSize ColdCapsule.wireSize _ }

def framesOf (s : StoreRecord) (count : Nat) : Frames :=
  Vector.ofFn fun i =>
    if i.val < count then
      slice s.payload (rawOffset + i.val * ColdEvidence.wireSize) ColdEvidence.wireSize _
    else zero _

def wellFramed (s : StoreRecord) : Bool :=
  let p := s.payload
  let count := (byteAt p 12).toNat
  Nand.ColdStore.shape s && decide (rawOffset ≤ s.size.toNat) && get p 0 4 == magic &&
    get p 4 2 == 1 && get p 6 2 == headerSize && get p 8 2 == ColdCapsule.wireSize &&
    get p 10 2 == ColdEvidence.wireSize && decide (count ≤ maxFrames) && zeros p 13 16 &&
    s.size.toNat == payloadSize count

def decodeInto (s : StoreRecord) (expected : Binding) (bindingDigest : Digest) (hash : Hasher) :
    Option Decoded := do
  if !wellFramed s then none
  let count := (byteAt s.payload 12).toNat
  let metadata ← ColdCapsule.decode (innerOf s) expected bindingDigest
  let d : Decoded :=
    { metadata := metadata, frames := framesOf s count, count := count,
      rawHash := slice s.payload 16 32 32 }
  let actual ← rawDigest s count hash
  if actual ≠ d.rawHash ∨ !frameRules d then none else some d

/-- The frames `a` holds are the first of those `b` holds. -/
def keepsFrames (a b : Decoded) : Bool :=
  b.frames.toList.take a.count == a.frames.toList.take a.count

def transitionDecoded (a b : Decoded) : Bool :=
  let claims := a.metadata.phase == .handedOff && b.metadata.phase == .captureClaimed
  let ends := a.metadata.capture == .none && b.metadata.capture != .none &&
    (b.metadata.phase == .captured || b.metadata.phase == .captureFailed)
  transition a.metadata b.metadata && decide (a.count ≤ b.count) && keepsFrames a b &&
    (b.count == a.count || claims || ends)

structure Policy where
  expected : Binding := {}
  bindingDigest : Digest := zeros 32
  hash : Hasher

namespace Policy
variable (p : Policy)

def decode (s : StoreRecord) : Option Decoded := decodeInto s p.expected p.bindingDigest p.hash

def valid (s : StoreRecord) : Bool := (p.decode s).isSome

def initial (s : StoreRecord) : Bool :=
  match p.decode s with
  | some d => ColdTrial.initial d.metadata && d.count == 0
  | none => false

def transition (old next : StoreRecord) : Bool :=
  match p.decode old, p.decode next with
  | some a, some b => transitionDecoded a b
  | _, _ => false

end Policy

/-! ## Evidence along a chain -/

def evidence (d : Decoded) : List Wire := d.frames.toList.take d.count

/-- One Initial and one Final frame of the claimed boot, taken within its time budget. -/
structure CaptureHeld (d : Decoded) (first last : Frame) : Prop where
  frames : ∃ a b, evidence d = [a, b] ∧ ColdEvidence.decode a = some first ∧
    ColdEvidence.decode b = some last
  kinds : first.kind = .initial ∧ last.kind = .final
  boot : sameNonce first d.metadata.claimedBoot = true ∧
    sameNonce last d.metadata.claimedBoot = true
  budget : beforeLimit d.metadata first = true ∧ beforeLimit d.metadata last = true
  claim : afterClaim d.metadata last = true

theorem decode_rules {p : Policy} {s : StoreRecord} {d : Decoded} (h : p.decode s = some d) :
    frameRules d = true ∧ shape d.metadata = true ∧ d.count ≤ maxFrames := by
  simp only [Policy.decode, decodeInto, Option.bind_eq_bind] at h
  split at h
  · cases h
  · rename_i framed
    obtain ⟨metadata, decoded, h⟩ := Option.bind_eq_some_iff.mp h
    obtain ⟨actual, digest, h⟩ := Option.bind_eq_some_iff.mp h
    split at h
    · cases h
    · rename_i rules
      cases h
      have known := decode_canonical decoded
      refine ⟨by grind, ?_, ?_⟩
      · simp only [canonical, Bool.and_eq_true] at known
        exact known.1.2
      · simp only [wellFramed, Bool.not_eq_true'] at framed
        grind

theorem success_of_captured {r : Record} (h : shape r = true) (hp : r.phase = .captured) :
    r.capture = .success := by
  simp [shape, phaseShape, hp] at h
  grind

private theorem evidence_of_two {d : Decoded} (h : d.count = 2) :
    evidence d = [d.frames[0], d.frames[1]] := by
  have two : d.frames.toList = [d.frames[0], d.frames[1]] := by
    apply List.ext_getElem
    · simp
    · intro i hi _
      match i with
      | 0 => simp
      | 1 => simp
      | i + 2 => simp at hi
  simp [evidence, h, two]

theorem captureHeld_of_rules {d : Decoded} (h : frameRules d = true)
    (hc : d.metadata.capture = .success) : ∃ first last, CaptureHeld d first last := by
  simp only [frameRules, hc] at h
  split at h
  · simp at h
  · split at h
    · cases h
    · split at h
      · rename_i first last hf hl
        simp only [evidenceRules, hc, successRules, Bool.and_eq_true, beq_iff_eq] at h
        refine ⟨first, last, ?_⟩
        have two : d.count = 2 := by grind
        exact
          { frames := ⟨_, _, evidence_of_two two, hf, by simpa [lastFrame, two] using hl⟩
            kinds := by grind
            boot := by grind
            budget := by grind
            claim := by grind }
      · cases h

/-- The later envelope holds at least the frames of the earlier one, in their places. -/
structure Extends (p : Policy) (s t : StoreRecord) : Prop where
  decoded : ∃ a b, p.decode s = some a ∧ p.decode t = some b ∧ a.count ≤ b.count ∧
    evidence a <+: evidence b

private theorem evidence_prefix {a b : Decoded} (count : a.count ≤ b.count)
    (same : keepsFrames a b = true) : evidence a <+: evidence b := by
  simp only [keepsFrames, beq_iff_eq] at same
  rw [evidence, ← same, evidence]
  exact List.take_prefix_take_left count

private theorem transitionDecoded_facts {a b : Decoded} (h : transitionDecoded a b = true) :
    a.count ≤ b.count ∧ keepsFrames a b = true := by
  simp only [transitionDecoded, Bool.and_eq_true, decide_eq_true_eq] at h
  exact ⟨h.1.1.2, h.1.2⟩

theorem extends_of_transition {p : Policy} {s t : StoreRecord} (h : p.transition s t = true) :
    Extends p s t := by
  unfold Policy.transition at h
  cases ha : p.decode s with
  | none => simp [ha] at h
  | some a =>
    cases hb : p.decode t with
    | none => simp [ha, hb] at h
    | some b =>
      rw [ha, hb] at h
      obtain ⟨count, same⟩ := transitionDecoded_facts h
      exact ⟨a, b, ha, hb, count, evidence_prefix count same⟩

theorem extends_trans {p : Policy} {s t u : StoreRecord} (first : Extends p s t)
    (second : Extends p t u) : Extends p s u := by
  obtain ⟨a, b, ha, hb, count, keeps⟩ := first.decoded
  obtain ⟨b', c, hb', hc, count', keeps'⟩ := second.decoded
  have same : b = b' := by
    rw [hb] at hb'
    exact Option.some.inj hb'
  subst same
  exact ⟨a, c, ha, hc, Nat.le_trans count count', keeps.trans keeps'⟩

end Mosaico.Gauge.ColdEnvelope
