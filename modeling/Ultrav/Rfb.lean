import Mathlib.Algebra.Ring.Nat
import Mathlib.Data.List.Basic
import Mathlib.Tactic.Ring

/-!
# The client's side of RFB 3.8

* `bigEndian` / `readBig` — numbers in so many bytes, the first one on top; `readBig_bigEndian`
  is the round trip.
* `PixelFormat` — a pixel format, with its place in a message and the colours that it reads.
* `ClientMessage` — the messages of a client; `ClientHello` — what it says before them.
* `requests` — the formats in force at the update requests of a client.
-/

namespace Ultrav.Rfb

/-! ## Numbers -/

/-- The lowest bytes of a number, the first one on top. -/
def bigEndian : ℕ → ℕ → List UInt8
  | 0, _ => []
  | k + 1, v => .ofNat (v >>> (8 * k)) :: bigEndian k v

/-- The number that some bytes are. -/
def readBig (bs : List UInt8) : ℕ := bs.foldl (fun v b => 256 * v + b.toNat) 0

@[simp] theorem length_bigEndian (k v : ℕ) : (bigEndian k v).length = k := by
  induction k with
  | zero => rfl
  | succ k ih => rw [bigEndian, List.length_cons, ih]

theorem foldl_readBig (bs : List UInt8) (v : ℕ) :
    bs.foldl (fun v b => 256 * v + b.toNat) v = v * 256 ^ bs.length + readBig bs := by
  induction bs generalizing v with
  | nil => simp [readBig]
  | cons b bs ih =>
    rw [readBig, List.foldl_cons, List.foldl_cons, ih, ih (256 * 0 + b.toNat), List.length_cons,
      Nat.pow_succ]
    ring

theorem readBig_cons (b : UInt8) (bs : List UInt8) :
    readBig (b :: bs) = b.toNat * 256 ^ bs.length + readBig bs := by
  rw [readBig, List.foldl_cons, foldl_readBig]
  simp

/-- **Round trip**, up to the bytes that there are. -/
theorem readBig_bigEndian (k v : ℕ) : readBig (bigEndian k v) = v % 256 ^ k := by
  induction k with
  | zero => simp [bigEndian, readBig, Nat.mod_one]
  | succ k ih =>
    have hpow : 2 ^ (8 * k) = 256 ^ k := by rw [Nat.pow_mul]
    rw [bigEndian, readBig_cons, length_bigEndian, ih, Nat.mod_pow_succ, UInt8.toNat_ofNat',
      Nat.shiftRight_eq_div_pow, hpow, Nat.mul_comm, Nat.add_comm]

theorem readBig_bigEndian_of_lt {k v : ℕ} (h : v < 256 ^ k) : readBig (bigEndian k v) = v := by
  rw [readBig_bigEndian, Nat.mod_eq_of_lt h]

/-! ## Blocks -/

section Blocks

variable {α β : Type} {f : α → List β} {n : ℕ}

theorem length_blocks (h : ∀ a, (f a).length = n) (l : List α) :
    (l.flatMap f).length = l.length * n := by
  induction l with
  | nil => simp
  | cons a l ih => rw [List.flatMap_cons, List.length_append, h, ih, List.length_cons]; ring

/-- Past so many blocks is past so many elements. -/
theorem drop_blocks (h : ∀ a, (f a).length = n) (l : List α) (i : ℕ) :
    (l.flatMap f).drop (i * n) = (l.drop i).flatMap f := by
  induction i generalizing l with
  | zero => simp
  | succ i ih =>
    cases l with
    | nil => simp
    | cons a l =>
      have hoff : (i + 1) * n = (f a).length + i * n := by rw [h]; ring
      rw [List.flatMap_cons, hoff, ← List.drop_drop, List.drop_left, List.drop_succ_cons, ih]

/-- The block at a place, and what comes after it. -/
theorem drop_blocks_append (h : ∀ a, (f a).length = n) {l : List α} {i : ℕ} (hi : i < l.length)
    (rest : List β) :
    (l.flatMap f ++ rest).drop (i * n) = f l[i] ++ ((l.drop (i + 1)).flatMap f ++ rest) := by
  have hle : i * n ≤ (l.flatMap f).length := by
    rw [length_blocks h]
    exact Nat.mul_le_mul_right n hi.le
  rw [List.drop_append_of_le_length hle, drop_blocks h, List.drop_eq_getElem_cons hi,
    List.flatMap_cons, List.append_assoc]

end Blocks

/-! ## Pixel formats -/

/-- What is seen of a pixel. -/
structure Colour where
  red : ℕ
  green : ℕ
  blue : ℕ
  deriving DecidableEq, Repr

/-- `PIXEL_FORMAT` -/
structure PixelFormat where
  bitsPerPixel : UInt8
  depth : UInt8
  bigEndianFlag : UInt8
  trueColourFlag : UInt8
  redMax : UInt16
  greenMax : UInt16
  blueMax : UInt16
  redShift : UInt8
  greenShift : UInt8
  blueShift : UInt8
  deriving DecidableEq, Repr

namespace PixelFormat

variable (f : PixelFormat)

/-- The format on the wire, before its padding. -/
def bytes : List UInt8 :=
  [f.bitsPerPixel, f.depth, f.bigEndianFlag, f.trueColourFlag] ++ bigEndian 2 f.redMax.toNat ++
    bigEndian 2 f.greenMax.toNat ++ bigEndian 2 f.blueMax.toNat ++
    [f.redShift, f.greenShift, f.blueShift]

/-- The number that the bytes of a pixel are. -/
def value (pixel : List UInt8) : ℕ :=
  if f.bigEndianFlag ≠ 0 then readBig pixel else readBig pixel.reverse

/-- The fields of a pixel. -/
def fields (v : ℕ) : Colour where
  red := (v >>> f.redShift.toNat) &&& f.redMax.toNat
  green := (v >>> f.greenShift.toNat) &&& f.greenMax.toNat
  blue := (v >>> f.blueShift.toNat) &&& f.blueMax.toNat

/-- A colour out of 255, scaled to the maxima. -/
def scaled (c : Colour) : Colour where
  red := c.red * f.redMax.toNat / 255
  green := c.green * f.greenMax.toNat / 255
  blue := c.blue * f.blueMax.toNat / 255

/-- The bits of a field. -/
def fieldBits (max : UInt16) (shift : UInt8) : ℕ := max.toNat <<< shift.toNat

/-- A true-colour format with maxima `2 ^ n - 1` and fields in the pixel that do not overlap. -/
structure Proper : Prop where
  size : f.bitsPerPixel ∈ ([8, 16, 32] : List UInt8)
  trueColour : f.trueColourFlag ≠ 0
  maxima : ∀ max ∈ [f.redMax, f.greenMax, f.blueMax], max.toNat &&& (max.toNat + 1) = 0
  fits : ∀ field ∈ [(f.redMax, f.redShift), (f.greenMax, f.greenShift), (f.blueMax, f.blueShift)],
    fieldBits field.1 field.2 < 2 ^ f.bitsPerPixel.toNat
  apart : [fieldBits f.redMax f.redShift, fieldBits f.greenMax f.greenShift,
    fieldBits f.blueMax f.blueShift].Pairwise fun a b => a &&& b = 0

end PixelFormat

/-! ## Messages -/

/-- Three bytes without a meaning. -/
abbrev Pad := UInt8 × UInt8 × UInt8

def padBytes (p : Pad) : List UInt8 := [p.1, p.2.1, p.2.2]

/-- The messages of a client. -/
inductive ClientMessage where
  | setPixelFormat (pad : Pad) (f : PixelFormat) (tail : Pad)
  | setEncodings (pad : UInt8) (encodings : { l : List UInt32 // l.length < 2 ^ 16 })
  | framebufferUpdateRequest (incremental : UInt8) (x y width height : UInt16)
  | keyEvent (down : UInt8) (pad : UInt16) (key : UInt32)
  | pointerEvent (buttons : UInt8) (x y : UInt16)
  | clientCutText (pad : Pad) (text : { l : List UInt8 // l.length < 2 ^ 32 })

namespace ClientMessage

/-- The type byte. -/
def type : ClientMessage → UInt8
  | setPixelFormat _ _ _ => 0
  | setEncodings _ _ => 2
  | framebufferUpdateRequest _ _ _ _ _ => 3
  | keyEvent _ _ _ => 4
  | pointerEvent _ _ _ => 5
  | clientCutText _ _ => 6

/-- The bytes after the type. -/
def body : ClientMessage → List UInt8
  | setPixelFormat pad f tail => padBytes pad ++ f.bytes ++ padBytes tail
  | setEncodings pad encodings =>
    pad :: bigEndian 2 encodings.val.length ++
      encodings.val.flatMap fun e => bigEndian 4 e.toNat
  | framebufferUpdateRequest incremental x y width height =>
    incremental :: bigEndian 2 x.toNat ++ bigEndian 2 y.toNat ++ bigEndian 2 width.toNat ++
      bigEndian 2 height.toNat
  | keyEvent down pad key => down :: bigEndian 2 pad.toNat ++ bigEndian 4 key.toNat
  | pointerEvent buttons x y => buttons :: bigEndian 2 x.toNat ++ bigEndian 2 y.toNat
  | clientCutText pad text => padBytes pad ++ bigEndian 4 text.val.length ++ text.val

/-- A message on the wire. -/
def encode (m : ClientMessage) : List UInt8 := m.type :: m.body

end ClientMessage

/-- What a client says before its messages: its version, the security type that it takes, and
whether the desktop is shared. -/
structure ClientHello where
  version : { l : List UInt8 // l.length = 12 }
  security : UInt8
  shared : UInt8

/-- The hello on the wire. -/
def ClientHello.encode (h : ClientHello) : List UInt8 := h.version.val ++ [h.security, h.shared]

/-- The format in force after some messages; none is that of the server. -/
def formatAfter : Option PixelFormat → List ClientMessage → Option PixelFormat
  | f, [] => f
  | _, .setPixelFormat _ f _ :: ms => formatAfter (some f) ms
  | f, _ :: ms => formatAfter f ms

/-- The formats in force at the update requests. -/
def requests : Option PixelFormat → List ClientMessage → List (Option PixelFormat)
  | _, [] => []
  | _, .setPixelFormat _ f _ :: ms => requests (some f) ms
  | f, .framebufferUpdateRequest _ _ _ _ _ :: ms => f :: requests f ms
  | f, _ :: ms => requests f ms

end Ultrav.Rfb
