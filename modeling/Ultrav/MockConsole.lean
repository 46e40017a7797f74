import Mathlib.Data.List.Forall2
import Ultrav.Rfb
import Ultrav.UrlPath

/-!
# The console of the mock provider

`serveRFB` draws one picture and answers every update request with it. The other messages are read
and, but for the pixel format, ignored.

* `turn` — one round of the message loop: what is read, and what comes of it.
* `serveRFB` — the whole conversation, for a client that stays or closes early.
* `turn_encode` — **a round reads one message**.
* `serveRFB_inSync` — the messages are read one by one, each update request has its frame, and the
  loop ends with the stream or at an unknown type.
-/

namespace Ultrav.Console

open Rfb

/-! ## Frames -/

/-- What the loop keeps of a pixel format. -/
structure Format where
  bpp : ℕ
  rmax : ℕ
  gmax : ℕ
  bmax : ℕ
  rshift : ℕ
  gshift : ℕ
  bshift : ℕ
  deriving DecidableEq, Repr

namespace Format

/-- The format of the first frames. -/
def initial : Format := ⟨32, 255, 255, 255, 16, 8, 0⟩

variable (fmt : Format)

/-- `rgb`, in a `uint64` -/
def rgb (r g b : ℕ) : ℕ :=
  let rq := r * fmt.rmax / 255
  let gq := g * fmt.gmax / 255
  let bq := b * fmt.bmax / 255
  rq <<< fmt.rshift % 2 ^ 64 ||| gq <<< fmt.gshift % 2 ^ 64 ||| bq <<< fmt.bshift % 2 ^ 64

/-- The bytes of the pixel at a position. -/
def pixel (x y : ℕ) : Bytes :=
  bigEndian (fmt.bpp / 8) (fmt.rgb (0x18 + x * 0x20 / 640) (0x1a + y * 0x30 / 400) 0x52)

/-- `buildFrame` -/
def buildFrame : Bytes :=
  [0, 0] ++ bigEndian 2 1 ++ bigEndian 2 0 ++ bigEndian 2 0 ++ bigEndian 2 640 ++
    bigEndian 2 400 ++ bigEndian 4 0 ++
    (List.range 400).flatMap fun y => (List.range 640).flatMap fun x => fmt.pixel x y

end Format

/-- The bytes from one place up to another. -/
def byteRange (bs : Bytes) (i j : ℕ) : Bytes := (bs.drop i).take (j - i)

/-- The format that is taken from the rest of a SetPixelFormat message. -/
def readFormat (msg19 : Bytes) : Format where
  bpp :=
    let bpp := (msg19.getD 3 0).toNat
    if bpp ≠ 8 ∧ bpp ≠ 16 ∧ bpp ≠ 32 then 32 else bpp
  rmax := readBig (byteRange msg19 6 8)
  gmax := readBig (byteRange msg19 8 10)
  bmax := readBig (byteRange msg19 10 12)
  rshift := (msg19.getD 12 0).toNat
  gshift := (msg19.getD 13 0).toNat
  bshift := (msg19.getD 14 0).toNat

/-! ## Reading -/

/-- Why the conversation ends. -/
inductive Stop where
  | endOfStream
  /-- the client closes and does not take what is written -/
  | hungUp
  | unknown (type : UInt8)
  deriving DecidableEq, Repr

/-- `io.ReadFull` and `io.CopyN`: so many bytes, and the stream after them. -/
def readFull (n : ℕ) (s : Bytes) : Option (Bytes × Bytes) :=
  if n ≤ s.length then some (s.take n, s.drop n) else none

/-- What comes of one round of the message loop. -/
inductive Turn where
  | stop (why : Stop)
  /-- the frame is written -/
  | update (rest : Bytes)
  | next (fmt : Format) (rest : Bytes)
  deriving DecidableEq, Repr

/-- What comes of a message that is read to its end, or of one that is not. -/
def Turn.ofRead {α : Type} (read : Option α) (k : α → Turn) : Turn :=
  match read with
  | none => .stop .endOfStream
  | some a => k a

/-- What is done for a message of a type. -/
def dispatch (fmt : Format) (type : UInt8) (s : Bytes) : Turn :=
  if type = 3 then .ofRead (readFull 9 s) fun (_, s) => .update s
  else if type = 2 then
    .ofRead (readFull 3 s) fun (hdr, s) =>
      .ofRead (readFull (readBig (hdr.drop 1) * 4) s) fun (_, s) => .next fmt s
  else if type = 0 then .ofRead (readFull 19 s) fun (msg19, s) => .next (readFormat msg19) s
  else if type = 4 then .ofRead (readFull 7 s) fun (_, s) => .next fmt s
  else if type = 5 then .ofRead (readFull 5 s) fun (_, s) => .next fmt s
  else if type = 6 then
    .ofRead (readFull 7 s) fun (hdr, s) =>
      .ofRead (readFull (readBig (hdr.drop 3)) s) fun (_, s) => .next fmt s
  else .stop (.unknown type)

/-- One round of the message loop. -/
def turn (fmt : Format) (s : Bytes) : Turn :=
  .ofRead (readFull 1 s) fun (msg, s) => dispatch fmt (msg.headD 0) s

/-! ## The conversation -/

/-- What the server writes, and why it ends. -/
structure Transcript where
  writes : List Bytes
  stop : Stop
  deriving DecidableEq, Repr

namespace Transcript

def cons (w : Bytes) (t : Transcript) : Transcript := { t with writes := w :: t.writes }

/-- Writes in front. -/
def after (ws : List Bytes) (t : Transcript) : Transcript := { t with writes := ws ++ t.writes }

/-- The same for a client that takes so many writes and then closes. -/
def upTo (takes : Option ℕ) (t : Transcript) : Transcript :=
  match takes with
  | none => t
  | some k => if t.writes.length ≤ k then t else ⟨t.writes.take k, .hungUp⟩

end Transcript

/-- A write, to a client that takes so many of them before it closes, and what comes after it. -/
def sending (w : Bytes) (takes : Option ℕ) (k : Option ℕ → Option Transcript) :
    Option Transcript :=
  if takes = some 0 then some ⟨[], .hungUp⟩ else (k (takes.map (· - 1))).map (.cons w)

/-- A read of the handshake, and what comes after it. -/
def receiving (n : ℕ) (s : Bytes) (k : Bytes → Option Transcript) : Option Transcript :=
  match readFull n s with
  | none => some ⟨[], .endOfStream⟩
  | some (_, s) => k s

/-- The message loop; `fuel` bounds its rounds. -/
def serveLoop : ℕ → Option ℕ → Format → Bytes → Option Transcript
  | 0, _, _, _ => none
  | fuel + 1, takes, fmt, s =>
    match turn fmt s with
    | .stop why => some ⟨[], why⟩
    | .next fmt s => serveLoop fuel takes fmt s
    | .update s => sending fmt.buildFrame takes fun takes => serveLoop fuel takes fmt s

/-- The server's part of the initialization. -/
def serverInit (name : Bytes) : Bytes :=
  bigEndian 2 640 ++ bigEndian 2 400 ++
    [32, 24, 0, 1, 0, 255, 0, 255, 0, 255, 16, 8, 0, 0, 0, 0] ++
    bigEndian 4 name.length ++ name

/-- `serveRFB`, with what the client sends until it closes; a round of the loop takes a byte at
least. The deadline of the handshake is left out. -/
def serveRFB (takes : Option ℕ) (name s : Bytes) : Option Transcript :=
  sending (bytesOf "RFB 003.008\n") takes fun takes =>
  receiving 12 s fun s =>
  -- security types: None
  sending [1, 1] takes fun takes =>
  receiving 1 s fun s =>
  -- security result: OK
  sending [0, 0, 0, 0] takes fun takes =>
  receiving 1 s fun s =>
  sending (serverInit name) takes fun takes =>
  serveLoop (s.length + 1) takes .initial s

/-- What the server writes in the handshake. -/
def greeting (name : Bytes) : List Bytes :=
  [bytesOf "RFB 003.008\n", [1, 1], [0, 0, 0, 0], serverInit name]

/-! ## Reading one message -/

theorem readFull_append {n : ℕ} {as : Bytes} (h : as.length = n) (rest : Bytes) :
    readFull n (as ++ rest) = some (as, rest) := by
  subst h
  rw [readFull, if_pos (by simp), List.take_left, List.drop_left]

theorem readFull_eq_some {n : ℕ} {s b s' : Bytes} (h : readFull n s = some (b, s')) :
    b ++ s' = s ∧ b.length = n := by
  rw [readFull] at h
  split at h
  · rename_i hn
    cases h
    exact ⟨List.take_append_drop n s, List.length_take_of_le hn⟩
  · cases h

theorem ofRead_append {n : ℕ} {as : Bytes} (h : as.length = n) (rest : Bytes)
    (k : Bytes × Bytes → Turn) : Turn.ofRead (readFull n (as ++ rest)) k = k (as, rest) := by
  rw [readFull_append h, Turn.ofRead]

/-- What the code makes of a pixel format. -/
def formatRead (f : PixelFormat) : Format :=
  readFormat (padBytes default ++ f.bytes ++ padBytes default)

/-- What comes of a message. -/
def afterMessage (fmt : Format) (m : ClientMessage) (rest : Bytes) : Turn :=
  match m with
  | .setPixelFormat _ f _ => .next (formatRead f) rest
  | .framebufferUpdateRequest _ _ _ _ _ => .update rest
  | _ => .next fmt rest

theorem turn_cons (fmt : Format) (type : UInt8) (s : Bytes) :
    turn fmt (type :: s) = dispatch fmt type s := @ofRead_append 1 [type] rfl s _

/-- A message whose length its type gives. -/
theorem dispatch_fixed {fmt : Format} {type : UInt8} {n : ℕ} {k : Bytes × Bytes → Turn}
    (hk : ∀ s, dispatch fmt type s = .ofRead (readFull n s) k) {body : Bytes}
    (hbody : body.length = n) (rest : Bytes) :
    dispatch fmt type (body ++ rest) = k (body, rest) := by
  rw [hk, ofRead_append hbody]

/-- A message with a length in front of the last part of it. -/
theorem dispatch_counted {fmt : Format} {type : UInt8} {n : ℕ} (count : Bytes → ℕ)
    (hk : ∀ s, dispatch fmt type s = .ofRead (readFull n s) fun p =>
      .ofRead (readFull (count p.1) p.2) fun q => .next fmt q.2)
    {hdr text : Bytes} (hhdr : hdr.length = n) (htext : text.length = count hdr) (rest : Bytes) :
    dispatch fmt type (hdr ++ text ++ rest) = .next fmt rest := by
  rw [hk, List.append_assoc, ofRead_append hhdr, ofRead_append htext]

/-- **A round reads one message**, and nothing of what comes after it. -/
theorem turn_encode (fmt : Format) (m : ClientMessage) (rest : Bytes) :
    turn fmt (m.encode ++ rest) = afterMessage fmt m rest := by
  rw [ClientMessage.encode, List.cons_append, turn_cons]
  cases m with
  | setPixelFormat pad f tail =>
    have hk (s) : dispatch fmt 0 s = .ofRead (readFull 19 s) fun p => .next (readFormat p.1) p.2 :=
      rfl
    exact dispatch_fixed hk rfl rest
  | setEncodings pad encodings =>
    have hk (s) : dispatch fmt 2 s = .ofRead (readFull 3 s) fun p =>
        .ofRead (readFull (readBig (p.1.drop 1) * 4) p.2) fun q => .next fmt q.2 := rfl
    obtain ⟨encodings, hlen⟩ := encodings
    have hlt : encodings.length < 256 ^ 2 := by omega
    have hsize (e : UInt32) : (bigEndian 4 e.toNat).length = 4 := length_bigEndian 4 _
    refine dispatch_counted (fun hdr => readBig (hdr.drop 1) * 4) hk rfl ?_ rest
    refine (length_blocks hsize encodings).trans ?_
    exact congrArg (· * 4) (readBig_bigEndian_of_lt hlt).symm
  | framebufferUpdateRequest incremental x y width height =>
    have hk (s) : dispatch fmt 3 s = .ofRead (readFull 9 s) fun p => .update p.2 := rfl
    exact dispatch_fixed hk rfl rest
  | keyEvent down pad key =>
    have hk (s) : dispatch fmt 4 s = .ofRead (readFull 7 s) fun p => .next fmt p.2 := rfl
    exact dispatch_fixed hk rfl rest
  | pointerEvent buttons x y =>
    have hk (s) : dispatch fmt 5 s = .ofRead (readFull 5 s) fun p => .next fmt p.2 := rfl
    exact dispatch_fixed hk rfl rest
  | clientCutText pad text =>
    have hk (s) : dispatch fmt 6 s = .ofRead (readFull 7 s) fun p =>
        .ofRead (readFull (readBig (p.1.drop 3)) p.2) fun q => .next fmt q.2 := rfl
    obtain ⟨text, hlen⟩ := text
    have hlt : text.length < 256 ^ 4 := by omega
    refine dispatch_counted (fun hdr => readBig (hdr.drop 3)) hk rfl ?_ rest
    exact (readBig_bigEndian_of_lt hlt).symm

/-! ## Rounds -/

/-- The types of the messages that are read. -/
def knownTypes : List UInt8 := [0, 2, 3, 4, 5, 6]

/-- The ends of the loop for a client that stays. -/
def Stop.Proper (why : Stop) : Prop :=
  why = .endOfStream ∨ ∃ type, type ∉ knownTypes ∧ why = .unknown type

/-- What is left of the stream is shorter than this, or the end is proper. -/
def Turn.Sound (n : ℕ) : Turn → Prop
  | .stop why => why.Proper
  | .update s | .next _ s => s.length < n

theorem sound_ofRead {n m : ℕ} {s : Bytes} {k : Bytes × Bytes → Turn} (hs : s.length < n)
    (hk : ∀ b s', s'.length < n → (k (b, s')).Sound n) :
    (Turn.ofRead (readFull m s) k).Sound n := by
  cases h : readFull m s with
  | none => exact .inl rfl
  | some p =>
    obtain ⟨b, s'⟩ := p
    have happ := congrArg List.length (readFull_eq_some h).1
    rw [List.length_append] at happ
    exact hk b s' (by omega)

theorem sound_dispatch (fmt : Format) (type : UInt8) {s : Bytes} {n : ℕ} (hs : s.length < n) :
    (dispatch fmt type s).Sound n := by
  rw [dispatch]
  split_ifs with h3 h2 h0 h4 h5 h6
  · exact sound_ofRead hs fun _ _ h => h
  · exact sound_ofRead hs fun _ _ h => sound_ofRead h fun _ _ h => h
  · exact sound_ofRead hs fun _ _ h => h
  · exact sound_ofRead hs fun _ _ h => h
  · exact sound_ofRead hs fun _ _ h => h
  · exact sound_ofRead hs fun _ _ h => sound_ofRead h fun _ _ h => h
  · exact .inr ⟨type, by simp [knownTypes, *], rfl⟩

/-- **A round takes a byte** or ends properly. -/
theorem sound_turn (fmt : Format) {s : Bytes} {n : ℕ} (hs : s.length < n + 1) :
    (turn fmt s).Sound n := by
  cases s with
  | nil => exact .inl rfl
  | cons type s =>
    rw [turn_cons]
    exact sound_dispatch fmt type (Nat.lt_of_succ_lt_succ hs)

/-- **The loop ends**, for a client that stays properly. -/
theorem serveLoop_ends (fmt : Format) {s : Bytes} {fuel : ℕ} (hs : s.length < fuel) :
    ∃ t, serveLoop fuel none fmt s = some t ∧ t.stop.Proper := by
  induction fuel generalizing fmt s with
  | zero => cases hs
  | succ fuel ih =>
    have hsound := sound_turn fmt hs
    rw [serveLoop]
    cases h : turn fmt s with
    | stop why =>
      rw [h] at hsound
      exact ⟨_, rfl, hsound⟩
    | next fmt' s' =>
      rw [h] at hsound
      exact ih fmt' hsound
    | update s' =>
      rw [h] at hsound
      obtain ⟨t, ht, hstop⟩ := ih fmt hsound
      refine ⟨t.cons fmt.buildFrame, ?_, hstop⟩
      simp [sending, ht]

/-- More fuel than the stream is long makes no difference. -/
theorem serveLoop_fuel (takes : Option ℕ) (fmt : Format) {s : Bytes} {a b : ℕ}
    (ha : s.length < a) (hb : s.length < b) :
    serveLoop a takes fmt s = serveLoop b takes fmt s := by
  induction a generalizing takes fmt s b with
  | zero => cases ha
  | succ a ih =>
    cases b with
    | zero => cases hb
    | succ b =>
      have hsa := sound_turn fmt ha
      have hsb := sound_turn fmt hb
      rw [serveLoop, serveLoop]
      cases h : turn fmt s with
      | stop why => rfl
      | next fmt' s' =>
        rw [h] at hsa hsb
        exact ih takes fmt' hsa hsb
      | update s' =>
        rw [h] at hsa hsb
        exact congrArg (sending fmt.buildFrame takes) (funext fun takes => ih takes fmt hsa hsb)

/-! ## Clients that close -/

/-- A write to a client that closes is one to a client that stays, cut off. -/
theorem sending_upTo {w : Bytes} {takes : Option ℕ} {k : Option ℕ → Option Transcript}
    {t : Transcript} (hk : ∀ takes, k takes = some (t.upTo takes)) :
    sending w takes k = some ((t.cons w).upTo takes) := by
  cases takes with
  | none => simp [sending, hk, Transcript.upTo]
  | some n =>
    cases n with
    | zero => simp [sending, Transcript.upTo, Transcript.cons]
    | succ n =>
      rw [sending, if_neg (by simp), hk]
      by_cases hn : t.writes.length ≤ n
      · simp [Transcript.upTo, Transcript.cons, hn]
      · simp [Transcript.upTo, Transcript.cons, hn]

theorem serveLoop_upTo (takes : Option ℕ) {fmt : Format} {s : Bytes} {fuel : ℕ}
    {t : Transcript} (h : serveLoop fuel none fmt s = some t) :
    serveLoop fuel takes fmt s = some (t.upTo takes) := by
  induction fuel generalizing takes fmt s t with
  | zero => cases h
  | succ fuel ih =>
    rw [serveLoop] at h ⊢
    cases hturn : turn fmt s with
    | stop why =>
      rw [hturn] at h
      cases h
      cases takes <;> rfl
    | next fmt' s' =>
      rw [hturn] at h
      exact ih takes h
    | update s' =>
      rw [hturn] at h
      simp only [sending, reduceCtorEq, if_false, Option.map_none, Option.map_eq_some_iff] at h
      obtain ⟨t', ht', rfl⟩ := h
      exact sending_upTo fun takes => ih takes ht'

/-! ## Message sequences -/

/-- What the loop has for the format in force. -/
def formatInForce : Option PixelFormat → Format
  | none => .initial
  | some f => formatRead f

/-- The bits per pixel in force; others than 8, 16 and 32 are taken for 32. -/
def bitsInForce : Option PixelFormat → ℕ
  | none => 32
  | some f =>
    if f.bitsPerPixel.toNat ∈ [8, 16, 32] then f.bitsPerPixel.toNat else 32

/-- The frames for the update requests. -/
def frames (f : Option PixelFormat) (ms : List ClientMessage) : List Bytes :=
  (requests f ms).map fun f => (formatInForce f).buildFrame

/-- **The loop reads a sequence of messages** one by one, and goes on with what comes after it. -/
theorem serveLoop_messages (ms : List ClientMessage) (f : Option PixelFormat) {rest : Bytes}
    {fuel : ℕ} {t : Transcript} (hfuel : (ms.flatMap ClientMessage.encode ++ rest).length < fuel)
    (ht : serveLoop (rest.length + 1) none (formatInForce (formatAfter f ms)) rest = some t) :
    serveLoop fuel none (formatInForce f) (ms.flatMap ClientMessage.encode ++ rest) =
      some (t.after (frames f ms)) := by
  induction ms generalizing f fuel t with
  | nil => exact (serveLoop_fuel none _ hfuel (Nat.lt_succ_self _)).trans ht
  | cons m ms ih =>
    rw [List.flatMap_cons, List.append_assoc] at hfuel ⊢
    obtain ⟨fuel, rfl⟩ := Nat.exists_eq_add_one_of_ne_zero (Nat.ne_of_gt (Nat.zero_lt_of_lt hfuel))
    have hrest : (ms.flatMap ClientMessage.encode ++ rest).length < fuel := by
      rw [ClientMessage.encode, List.cons_append, List.length_cons, List.length_append] at hfuel
      omega
    rw [serveLoop, turn_encode]
    cases m with
    | setPixelFormat pad f' tail => exact ih (some f') hrest ht
    | framebufferUpdateRequest incremental x y width height =>
      have hloop := ih f hrest ht
      simp only [afterMessage, sending, reduceCtorEq, if_false, Option.map_none, hloop,
        Option.map_some]
      rfl
    | setEncodings pad encodings => exact ih f hrest ht
    | keyEvent down pad key => exact ih f hrest ht
    | pointerEvent buttons x y => exact ih f hrest ht
    | clientCutText pad text => exact ih f hrest ht

/-! ## The size of a frame -/

/-- A FramebufferUpdate of one raw rectangle over the whole screen. -/
def IsUpdate (bits : ℕ) (frame : Bytes) : Prop :=
  frame.length = 16 + 640 * 400 * bits / 8 ∧
    frame.take 16 = [0, 0, 0, 1, 0, 0, 0, 0, 2, 128, 1, 144, 0, 0, 0, 0]

theorem Format.length_pixel (fmt : Format) (x y : ℕ) : (fmt.pixel x y).length = fmt.bpp / 8 :=
  length_bigEndian _ _

theorem Format.length_row (fmt : Format) (y : ℕ) :
    ((List.range 640).flatMap fun x => fmt.pixel x y).length = 640 * (fmt.bpp / 8) := by
  rw [length_blocks fun x => fmt.length_pixel x y, List.length_range]

theorem isUpdate_buildFrame {fmt : Format} (h : fmt.bpp ∈ [8, 16, 32]) :
    IsUpdate fmt.bpp fmt.buildFrame := by
  refine ⟨?_, rfl⟩
  rw [Format.buildFrame, List.length_append, length_blocks fmt.length_row, List.length_range]
  simp only [List.mem_cons, List.not_mem_nil, or_false] at h
  obtain h | h | h := h <;> rw [h] <;> rfl

theorem bpp_formatInForce (f : Option PixelFormat) :
    (formatInForce f).bpp = bitsInForce f ∧ bitsInForce f ∈ [8, 16, 32] := by
  cases f with
  | none => exact ⟨rfl, by decide⟩
  | some f =>
    have hbpp : (formatRead f).bpp = if f.bitsPerPixel.toNat ≠ 8 ∧ f.bitsPerPixel.toNat ≠ 16 ∧
        f.bitsPerPixel.toNat ≠ 32 then 32 else f.bitsPerPixel.toNat := rfl
    rw [formatInForce, hbpp, bitsInForce]
    by_cases h : f.bitsPerPixel.toNat ∈ [8, 16, 32]
    · rw [if_pos h]
      refine ⟨if_neg ?_, h⟩
      simp only [List.mem_cons, List.not_mem_nil, or_false] at h
      omega
    · rw [if_neg h]
      refine ⟨if_pos ?_, by decide⟩
      simp only [List.mem_cons, List.not_mem_nil, or_false] at h
      omega

/-! ## The whole conversation -/

theorem receiving_append {n : ℕ} {as : Bytes} (h : as.length = n) (rest : Bytes)
    (k : Bytes → Option Transcript) : receiving n (as ++ rest) k = k rest := by
  rw [receiving, readFull_append h]

theorem receiving_cons (b : UInt8) (s : Bytes) (k : Bytes → Option Transcript) :
    receiving 1 (b :: s) k = k s := @receiving_append 1 [b] rfl s k

/-- **The handshake**. -/
theorem serveRFB_hello (takes : Option ℕ) (name : Bytes) (hello : ClientHello) {s : Bytes}
    {t : Transcript} (h : serveLoop (s.length + 1) none .initial s = some t) :
    serveRFB takes name (hello.encode ++ s) = some ((t.after (greeting name)).upTo takes) := by
  have hread : hello.encode ++ s =
      hello.version.val ++ hello.security :: hello.shared :: s := by
    rw [ClientHello.encode, List.append_assoc]
    rfl
  have hwrites : t.after (greeting name) = (((t.cons (serverInit name)).cons [0, 0, 0, 0]).cons
      [1, 1]).cons (bytesOf "RFB 003.008\n") := rfl
  rw [serveRFB, hread, hwrites]
  refine sending_upTo fun takes => ?_
  rw [receiving_append hello.version.property]
  refine sending_upTo fun takes => ?_
  rw [receiving_cons]
  refine sending_upTo fun takes => ?_
  rw [receiving_cons]
  exact sending_upTo fun takes => serveLoop_upTo takes h

theorem serveLoop_nil (fmt : Format) (fuel : ℕ) :
    serveLoop (fuel + 1) none fmt [] = some ⟨[], .endOfStream⟩ := rfl

theorem serveLoop_unknown (fmt : Format) (fuel : ℕ) {type : UInt8} (h : type ∉ knownTypes)
    (s : Bytes) : serveLoop (fuel + 1) none fmt (type :: s) = some ⟨[], .unknown type⟩ := by
  simp only [knownTypes, List.mem_cons, List.not_mem_nil, or_false, not_or] at h
  obtain ⟨h0, h2, h3, h4, h5, h6⟩ := h
  have hturn : turn fmt (type :: s) = .stop (.unknown type) := by
    rw [turn_cons, dispatch, if_neg h3, if_neg h2, if_neg h0, if_neg h4, if_neg h5, if_neg h6]
  rw [serveLoop, hturn]

/-- **In sync**: after any messages the server has written one frame of the right size for each
update request, and reads on exactly behind them. It ends with the stream, or at an unknown type;
a client that closes early gets the first writes. -/
theorem serveRFB_inSync (takes : Option ℕ) (name : Bytes) (hello : ClientHello)
    (ms : List ClientMessage) (rest : Bytes) :
    ∃ t, serveLoop (rest.length + 1) none (formatInForce (formatAfter none ms)) rest = some t ∧
      serveRFB takes name (hello.encode ++ (ms.flatMap ClientMessage.encode ++ rest)) =
        some ((t.after (greeting name ++ frames none ms)).upTo takes) ∧
      List.Forall₂ (fun f frame => IsUpdate (bitsInForce f) frame) (requests none ms)
        (frames none ms) ∧
      t.stop.Proper ∧ (rest = [] → t = ⟨[], .endOfStream⟩) ∧
      ∀ type tail, rest = type :: tail → type ∉ knownTypes → t = ⟨[], .unknown type⟩ := by
  obtain ⟨t, ht, hstop⟩ :=
    serveLoop_ends (formatInForce (formatAfter none ms)) (Nat.lt_succ_self rest.length)
  refine ⟨t, ht, ?_, ?_, hstop, ?_, ?_⟩
  · have hloop := serveLoop_messages ms none (Nat.lt_succ_self _) ht
    rw [serveRFB_hello takes name hello hloop, Transcript.after, Transcript.after,
      Transcript.after, List.append_assoc]
  · rw [frames, List.forall₂_map_right_iff, List.forall₂_same]
    intro f _
    obtain ⟨hbpp, hbits⟩ := bpp_formatInForce f
    rw [← hbpp] at hbits ⊢
    exact isUpdate_buildFrame hbits
  · rintro rfl
    exact (Option.some.inj ((serveLoop_nil _ _).symm.trans ht)).symm
  · rintro type tail rfl htype
    exact (Option.some.inj ((serveLoop_unknown _ _ htype tail).symm.trans ht)).symm

end Ultrav.Console
