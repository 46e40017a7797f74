import Ultrav.MockConsole

/-!
# The colours of the mock console

The loop takes the maxima and the shifts of a pixel format one byte too early out of the message,
and writes every pixel with the top byte first. What is in a frame is therefore seldom what its
client sees.

* `ShowsGradient` — the client sees the gradient in a frame.
* `packed` — the word of a pixel, from the numbers of the client's format.
* `Coincides` — the client's fields of that word are those of the gradient.
* `showsGradient_iff` — the message sequences whose frames all show it.
-/

namespace Ultrav.Console

open Rfb

/-! ## What the client sees -/

/-- The colour of a position, out of 255. -/
def gradient (x y : ℕ) : Colour := ⟨0x18 + x * 0x20 / 640, 0x1a + y * 0x30 / 400, 0x52⟩

/-- The format of ServerInit. -/
def announced : PixelFormat := ⟨32, 24, 0, 1, 255, 255, 255, 16, 8, 0⟩

/-- It is the one that is written. -/
theorem announced_bytes (name : Bytes) : byteRange (serverInit name) 4 17 = announced.bytes := rfl

/-- The format of the client for what is in force. -/
def clientFormat (f : Option PixelFormat) : PixelFormat := f.getD announced

/-- The bytes of the pixel at a position of a frame. -/
def pixelAt (bits : ℕ) (frame : Bytes) (x y : ℕ) : Bytes :=
  (frame.drop (16 + (640 * y + x) * (bits / 8))).take (bits / 8)

/-- The client sees the gradient, scaled to its maxima. -/
def ShowsGradient (f : Option PixelFormat) (frame : Bytes) : Prop :=
  ∀ x y, x < 640 → y < 400 →
    (clientFormat f).fields ((clientFormat f).value (pixelAt (bitsInForce f) frame x y)) =
      (clientFormat f).scaled (gradient x y)

/-! ## What is written -/

/-- The word of a pixel. The maxima have the byte in front of them on top and lack their last one,
and the first shift is what the blue maximum ends in. -/
def packed (f : PixelFormat) (r g : ℕ) : ℕ :=
  (r * (f.trueColourFlag.toNat * 256 + f.redMax.toNat / 256) / 255) <<<
      (f.blueMax.toNat % 256) % 2 ^ 64 |||
    (g * (f.redMax.toNat % 256 * 256 + f.greenMax.toNat / 256) / 255) <<<
      f.redShift.toNat % 2 ^ 64 |||
    (0x52 * (f.greenMax.toNat % 256 * 256 + f.blueMax.toNat / 256) / 255) <<<
      f.greenShift.toNat % 2 ^ 64

/-- The word of each colour of the gradient has its parts where the client looks for them. -/
def Coincides (f : PixelFormat) : Prop :=
  ∀ r ∈ List.range' 24 32, ∀ g ∈ List.range' 26 48,
    f.fields (f.value (bigEndian (bitsInForce (some f) / 8) (packed f r g))) =
      f.scaled ⟨r, g, 0x52⟩

instance (f : PixelFormat) : Decidable (Coincides f) := List.decidableBAll _ _

theorem readBig_pair (a b : UInt8) : readBig [a, b] = a.toNat * 256 + b.toNat := by
  rw [readBig_cons, readBig_cons]
  simp [readBig]

theorem toNat_high (n : UInt16) : (UInt8.ofNat (n.toNat >>> 8)).toNat = n.toNat / 256 := by
  have hn := n.toNat_lt
  rw [UInt8.toNat_ofNat', Nat.shiftRight_eq_div_pow]
  omega

theorem toNat_low (n : UInt16) : (UInt8.ofNat n.toNat).toNat = n.toNat % 256 := by
  rw [UInt8.toNat_ofNat']

/-- **The misreading**. -/
theorem rgb_formatRead (f : PixelFormat) (r g : ℕ) :
    (formatRead f).rgb r g 0x52 = packed f r g := by
  have hrmax : (formatRead f).rmax = f.trueColourFlag.toNat * 256 + f.redMax.toNat / 256 :=
    (readBig_pair f.trueColourFlag (.ofNat (f.redMax.toNat >>> 8))).trans (by rw [toNat_high])
  have hgmax : (formatRead f).gmax = f.redMax.toNat % 256 * 256 + f.greenMax.toNat / 256 :=
    (readBig_pair (.ofNat f.redMax.toNat) (.ofNat (f.greenMax.toNat >>> 8))).trans
      (by rw [toNat_high, toNat_low])
  have hbmax : (formatRead f).bmax = f.greenMax.toNat % 256 * 256 + f.blueMax.toNat / 256 :=
    (readBig_pair (.ofNat f.greenMax.toNat) (.ofNat (f.blueMax.toNat >>> 8))).trans
      (by rw [toNat_high, toNat_low])
  have hrshift : (formatRead f).rshift = f.blueMax.toNat % 256 := toNat_low f.blueMax
  have hgshift : (formatRead f).gshift = f.redShift.toNat := rfl
  have hbshift : (formatRead f).bshift = f.greenShift.toNat := rfl
  rw [Format.rgb, hrmax, hgmax, hbmax, hrshift, hgshift, hbshift, packed]

/-! ## The pixels of a frame -/

/-- **The pixel at a position** is where the client looks for it. -/
theorem pixelAt_buildFrame (fmt : Format) {x y : ℕ} (hx : x < 640) (hy : y < 400) :
    pixelAt fmt.bpp fmt.buildFrame x y = fmt.pixel x y := by
  have hrows : fmt.buildFrame.drop 16 =
      ((List.range 400).flatMap fun y => (List.range 640).flatMap fun x => fmt.pixel x y) ++
        [] := by
    rw [Format.buildFrame, List.append_nil]
    exact List.drop_left' rfl
  have hoff : (640 * y + x) * (fmt.bpp / 8) = y * (640 * (fmt.bpp / 8)) + x * (fmt.bpp / 8) := by
    ring
  rw [pixelAt, ← List.drop_drop, hrows, hoff, ← List.drop_drop,
    drop_blocks_append fmt.length_row (by simpa using hy), List.getElem_range,
    drop_blocks_append (fun x => fmt.length_pixel x y) (by simpa using hx), List.getElem_range]
  exact List.take_left' (fmt.length_pixel x y)

/-- Every level of red and green is somewhere in the gradient. -/
theorem exists_gradient {r g : ℕ} (hr : r ∈ List.range' 24 32) (hg : g ∈ List.range' 26 48) :
    ∃ x y, x < 640 ∧ y < 400 ∧ gradient x y = ⟨r, g, 0x52⟩ := by
  rw [List.mem_range'_1] at hr hg
  refine ⟨20 * (r - 24), ((g - 26) * 25 + 2) / 3, by omega, by omega, ?_⟩
  rw [gradient, Colour.mk.injEq]
  omega

theorem gradient_range {x y : ℕ} (hx : x < 640) (hy : y < 400) :
    (gradient x y).red ∈ List.range' 24 32 ∧ (gradient x y).green ∈ List.range' 26 48 := by
  simp only [gradient, List.mem_range'_1]
  omega

/-- **A frame in a format of the client.** -/
theorem showsGradient_buildFrame (f : PixelFormat) :
    ShowsGradient (some f) (formatRead f).buildFrame ↔ Coincides f := by
  have hbpp : (formatRead f).bpp = bitsInForce (some f) := (bpp_formatInForce (some f)).1
  have hpixel {x y : ℕ} (hx : x < 640) (hy : y < 400) :
      pixelAt (bitsInForce (some f)) (formatRead f).buildFrame x y =
        bigEndian (bitsInForce (some f) / 8)
          (packed f (gradient x y).red (gradient x y).green) := by
    rw [← hbpp, pixelAt_buildFrame _ hx hy, Format.pixel, ← rgb_formatRead]
    rfl
  constructor
  · intro h r hr g hg
    obtain ⟨x, y, hx, hy, hc⟩ := exists_gradient hr hg
    have hxy := h x y hx hy
    rw [hpixel hx hy, hc] at hxy
    exact hxy
  · intro h x y hx hy
    obtain ⟨hr, hg⟩ := gradient_range hx hy
    rw [hpixel hx hy]
    exact h _ hr _ hg

/-- **The first frames** have their bytes in the other order. -/
theorem not_showsGradient_initial : ¬ ShowsGradient none Format.initial.buildFrame := by
  intro h
  have h0 := h 0 0 (by decide) (by decide)
  have hpixel : pixelAt (bitsInForce none) Format.initial.buildFrame 0 0 = [0, 24, 26, 82] :=
    pixelAt_buildFrame .initial (by decide) (by decide)
  rw [hpixel] at h0
  exact absurd h0 (by decide)

/-- The format was sent by the client, and comes out right. -/
def Suits (f : Option PixelFormat) : Prop := ∃ g, f = some g ∧ Coincides g

theorem showsGradient_frame (f : Option PixelFormat) :
    ShowsGradient f (formatInForce f).buildFrame ↔ Suits f := by
  cases f with
  | none => exact iff_of_false not_showsGradient_initial (fun ⟨_, h, _⟩ => nomatch h)
  | some f =>
    rw [formatInForce, showsGradient_buildFrame]
    constructor
    · intro h
      exact ⟨f, rfl, h⟩
    · rintro ⟨g, hg, h⟩
      obtain rfl := Option.some.inj hg
      exact h

theorem showsGradient_frames (ms : List ClientMessage) :
    List.Forall₂ ShowsGradient (requests none ms) (frames none ms) ↔
      ∀ f ∈ requests none ms, Suits f := by
  rw [frames, List.forall₂_map_right_iff, List.forall₂_same]
  exact forall₂_congr fun f _ => showsGradient_frame f

/-! ## Conversations -/

/-- What is written to a client that sends some messages and takes all that comes. -/
theorem serveRFB_messages (name : Bytes) (hello : ClientHello) (ms : List ClientMessage) :
    serveRFB none name (hello.encode ++ ms.flatMap ClientMessage.encode) =
      some ⟨greeting name ++ frames none ms, .endOfStream⟩ := by
  have hmessages : ms.flatMap ClientMessage.encode = ms.flatMap ClientMessage.encode ++ [] :=
    (List.append_nil _).symm
  have hloop := @serveLoop_messages ms none [] _ _ (Nat.lt_succ_self _) (serveLoop_nil _ 0)
  rw [hmessages, serveRFB_hello none name hello hloop, Transcript.after, Transcript.after,
    List.append_nil, Transcript.upTo]

/-- There are such formats: here the parts of the word happen to be where they should. -/
example : Coincides ⟨32, 24, 1, 1, 255, 255, 7, 7, 15, 23⟩ := by decide +kernel

/-! ### A usual format -/

/-- 32 bits per pixel, the top byte first, and a byte for each of the colours. -/
def bigEndian888 : PixelFormat := ⟨32, 24, 1, 1, 255, 255, 255, 16, 8, 0⟩

theorem proper_bigEndian888 : bigEndian888.Proper where
  size := by simp [bigEndian888]
  trueColour := by decide
  maxima := by simp [bigEndian888]
  fits := by simp [bigEndian888, PixelFormat.fieldBits]
  apart := by simp [bigEndian888, PixelFormat.fieldBits]

/-- A client that asks for one frame in it. -/
def askOnce : List ClientMessage :=
  [.setPixelFormat default bigEndian888 default, .framebufferUpdateRequest 0 0 0 640 400]

def anyHello : ClientHello := ⟨⟨bytesOf "RFB 003.008\n", rfl⟩, 1, 1⟩

end Ultrav.Console
