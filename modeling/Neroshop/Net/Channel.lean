import Neroshop.Lib.CStr
import Neroshop.Lib.Runs

/-!
# The TCP channel

`server.cpp` and `client.cpp`, the Linux code of `write` and `read`. Both
ends read into a buffer that they own and reuse, and hand the bytes on as a
C string. The kernel chooses how many of the bytes that are not yet read one
`::read` delivers; the choice is part of the event.

* `Read`: what `Server::read` and `Client::read` make of the bytes of one `::read`.
* `Direction.Faithful`: the texts that were returned are what was delivered.
* `channel_faithful_iff`: over every run and every division into chunks, it is so
  exactly when no zero byte is delivered.
-/

namespace Neroshop.Net

open Lib.CStr Lib.Runs

/-- A receive buffer of a fixed size. -/
structure Buffer (size : Nat) where
  bytes : Bytes
  size_eq : bytes.length = size

variable {size : Nat}

/-- Bytes at the start of the buffer; the rest of it stays. -/
def Buffer.store (b : Buffer size) (src : Bytes) (h : src.length ≤ size) :
    Buffer size :=
  ⟨Lib.CStr.store b.bytes src,
    (store_length (b.size_eq.symm ▸ h)).trans b.size_eq⟩

/-- The size that both sides ask `::read` for. -/
def requested : Nat := 255

/-- The bytes that one `::read` delivers. -/
abbrev Chunk := { bytes : Bytes // bytes.length ≤ requested }

/-- What a `read` of one side makes of a `::read`. -/
structure Read (size : Nat) where
  buffer : Buffer size
  -- the string it returns; `none` is a read past the end of the buffer
  text : Option Bytes
  -- the end of the connection is announced
  announced : Bool
  -- the sockets are shut down and closed
  closed : Bool

/-- `memset(buffer, 0, 256)`, and `::read` into the buffer; `none` is a
`::read` that fails. -/
def fill (h : 256 ≤ size) (b : Buffer size) (result : Option Chunk) : Buffer size :=
  let cleared := b.store (List.replicate 256 0) (by rwa [List.length_replicate])
  match result with
  | none => cleared
  | some c => cleared.store c.1 (c.2.trans (by simp only [requested]; omega))

/-- `Server::read` -/
def serverRead (b : Buffer 512) (result : Option Chunk) : Read 512 :=
  let b := fill (by omega) b result
  let text := read b.bytes
  match result with
  | none => ⟨b, text, false, true⟩
  | some c =>
      ⟨b, text, 0 < c.1.length && c.1.length < 511
        && text == some (ascii "disconnect"), false⟩

/-- `Client::read` -/
def clientRead (b : Buffer 256) (result : Option Chunk) : Read 256 :=
  let b := fill (by omega) b result
  ⟨b, read b.bytes, false, false⟩

/-! ## One `read` -/

theorem drop_zeros {k n : Nat} (hk : k < n) (rest : Bytes) :
    ∃ t, (List.replicate n 0 ++ rest).drop k = 0 :: t := by
  refine ⟨List.replicate (n - k - 1) 0 ++ rest, ?_⟩
  rw [List.drop_append_of_le_length (by rw [List.length_replicate]; omega),
    List.drop_replicate, show n - k = n - k - 1 + 1 by omega, List.replicate_succ]
  simp

/-- **What a buffer hands on**: the delivered bytes, up to the first zero
byte among them. A failed `::read` hands on nothing. -/
theorem read_fill (h : 256 ≤ size) (b : Buffer size) (result : Option Chunk) :
    read (fill h b result).bytes
      = some (untilZero ((result.map Subtype.val).getD [])) := by
  cases result with
  | none =>
      obtain ⟨t, ht⟩ := drop_zeros (k := 0) (by omega : 0 < 256)
        (b.bytes.drop (List.replicate 256 (0 : Byte)).length)
      simp only [fill, Buffer.store, store]
      rw [← List.drop_zero (l := _ ++ _), ht, read_zero]
      rfl
  | some c =>
      obtain ⟨c, hc⟩ := c
      simp only [requested] at hc
      obtain ⟨t, ht⟩ := drop_zeros (k := c.length) (by omega : c.length < 256)
        (b.bytes.drop (List.replicate 256 (0 : Byte)).length)
      simp only [fill, Buffer.store, store]
      rw [ht, read_append_zero]
      rfl

/-! ## Both directions of a connection -/

/-- One direction: the bytes written, what each `::read` has delivered, and
the reader's buffer and returned strings. -/
structure Direction (size : Nat) where
  written : Bytes
  chunks : List Bytes
  buffer : Buffer size
  received : List (Option Bytes)

variable {d : Direction size}

/-- What the reading side has been delivered. -/
def Direction.taken (d : Direction size) : Bytes := d.chunks.flatten

/-- What is written and not delivered. -/
def Direction.unread (d : Direction size) : Bytes := d.written.drop d.taken.length

/-- `write`: `::write` sends the whole text. -/
def Direction.write (d : Direction size) (text : Bytes) : Direction size :=
  { d with written := d.written ++ text }

/-- The non-empty prefix of the unread bytes that one `::read` delivers. -/
def Direction.chunk (d : Direction size) (n : Nat) : Chunk :=
  ⟨d.unread.take (min (n + 1) requested), by
    rw [List.length_take]
    omega⟩

/-- `read`, when the kernel is ready to deliver `n + 1` bytes. With nothing
to read the call blocks. -/
def Direction.read (d : Direction size)
    (rd : Buffer size → Option Chunk → Read size) (n : Nat) : Direction size :=
  if d.unread.isEmpty then d
  else
    let r := rd d.buffer (some (d.chunk n))
    { d with
      chunks := d.chunks ++ [(d.chunk n).1]
      buffer := r.buffer
      received := d.received ++ [r.text] }

/-- The two directions of a connection. -/
structure Connection where
  toServer : Direction 512
  toClient : Direction 256

/-- A write or a read of one side; a read is delivered at most `n + 1` bytes. -/
inductive Event where
  | clientWrite (text : Bytes)
  | serverRead (n : Nat)
  | serverWrite (text : Bytes)
  | clientRead (n : Nat)

/-- One event. -/
def step (c : Connection) : Event → Connection
  | .clientWrite text => { c with toServer := c.toServer.write text }
  | .serverRead n => { c with toServer := c.toServer.read serverRead n }
  | .serverWrite text => { c with toClient := c.toClient.write text }
  | .clientRead n => { c with toClient := c.toClient.read clientRead n }

/-- Nothing is written yet, and the buffers hold what they hold. -/
def Connection.start (serverBuffer : Buffer 512) (clientBuffer : Buffer 256) :
    Connection :=
  ⟨⟨[], [], serverBuffer, []⟩, ⟨[], [], clientBuffer, []⟩⟩

/-- The returned strings are the bytes read from the socket. -/
def Direction.Faithful (d : Direction size) : Prop :=
  ∃ texts : List Bytes, d.received = texts.map some ∧ texts.flatten = d.taken

/-- What every run keeps: the bytes are read in order, and each returned
string is its chunk up to the first zero byte. -/
structure Direction.Inv (d : Direction size) : Prop where
  taken_prefix : d.taken <+: d.written
  received_eq : d.received = (d.chunks.map untilZero).map some

theorem Direction.Inv.write (h : d.Inv) (text : Bytes) : (d.write text).Inv :=
  ⟨h.taken_prefix.trans (List.prefix_append _ _), h.received_eq⟩

theorem Direction.Inv.read (h : d.Inv) {rd : Buffer size → Option Chunk → Read size}
    (hrd : ∀ b c, (rd b (some c)).text = some (untilZero c.1)) (n : Nat) :
    (d.read rd n).Inv := by
  unfold Direction.read
  split
  · exact h
  · constructor
    · have hsplit : d.taken ++ d.unread = d.written :=
        List.prefix_iff_eq_append.mp h.taken_prefix
      rw [← hsplit]
      -- the chunk is a prefix of what is left to read
      simpa [Direction.taken, Direction.chunk] using List.take_prefix _ d.unread
    · simp [h.received_eq, hrd]

theorem serverRead_text (b : Buffer 512) (c : Chunk) :
    (serverRead b (some c)).text = some (untilZero c.1) :=
  read_fill (by omega) b (some c)

theorem clientRead_text (b : Buffer 256) (c : Chunk) :
    (clientRead b (some c)).text = some (untilZero c.1) :=
  read_fill (by omega) b (some c)

theorem Direction.Inv.faithful_iff (h : d.Inv) : d.Faithful ↔ 0 ∉ d.taken := by
  rw [Direction.taken, ← flatten_untilZero_eq_iff, Direction.Faithful, h.received_eq,
    Direction.taken]
  constructor
  · intro h
    obtain ⟨texts, htexts, hflat⟩ := h
    rw [(List.map_inj_right fun _ _ => Option.some.inj).mp htexts]
    exact hflat
  · intro hflat
    exact ⟨_, rfl, hflat⟩

/-- The invariant of both directions. -/
def Inv (c : Connection) : Prop := c.toServer.Inv ∧ c.toClient.Inv

theorem inv_step (c : Connection) (e : Event) (h : Inv c) : Inv (step c e) := by
  obtain ⟨hs, hc⟩ := h
  cases e with
  | clientWrite text => exact ⟨hs.write text, hc⟩
  | serverRead n => exact ⟨hs.read serverRead_text n, hc⟩
  | serverWrite text => exact ⟨hs, hc.write text⟩
  | clientRead n => exact ⟨hs, hc.read clientRead_text n⟩

theorem inv_run (serverBuffer : Buffer 512) (clientBuffer : Buffer 256)
    (es : List Event) : Inv (run step (.start serverBuffer clientBuffer) es) := by
  have hstart : Inv (.start serverBuffer clientBuffer) :=
    ⟨⟨List.nil_prefix, rfl⟩, ⟨List.nil_prefix, rfl⟩⟩
  exact run_inv inv_step hstart es

/-- **The channel**: whatever the two ends write, and however the kernel
cuts the bytes up, each end reads a prefix of what the other wrote, and the
strings it hands on are what it read exactly when no byte of that is zero. -/
theorem channel_faithful_iff (serverBuffer : Buffer 512)
    (clientBuffer : Buffer 256) (es : List Event) :
    let c := run step (.start serverBuffer clientBuffer) es
    (c.toServer.taken <+: c.toServer.written
        ∧ (c.toServer.Faithful ↔ 0 ∉ c.toServer.taken))
      ∧ (c.toClient.taken <+: c.toClient.written
        ∧ (c.toClient.Faithful ↔ 0 ∉ c.toClient.taken)) := by
  obtain ⟨hs, hc⟩ := inv_run serverBuffer clientBuffer es
  exact ⟨⟨hs.taken_prefix, hs.faithful_iff⟩, ⟨hc.taken_prefix, hc.faithful_iff⟩⟩

/-- A text with a zero byte in the middle reaches the server cut short. -/
theorem channel_zero_byte :
    ¬ ∀ (serverBuffer : Buffer 512) (clientBuffer : Buffer 256) (es : List Event),
      (run step (.start serverBuffer clientBuffer) es).toServer.Faithful := by
  intro hall
  let serverBuffer : Buffer 512 := ⟨List.replicate 512 0, List.length_replicate⟩
  let clientBuffer : Buffer 256 := ⟨List.replicate 256 0, List.length_replicate⟩
  let es : List Event := [.clientWrite [97, 0, 98], .serverRead 2]
  have hzero := (inv_run serverBuffer clientBuffer es).1.faithful_iff.mp
    (hall serverBuffer clientBuffer es)
  have htaken : (run step (.start serverBuffer clientBuffer) es).toServer.taken
      = [97, 0, 98] := rfl
  rw [htaken] at hzero
  exact hzero (by decide)

end Neroshop.Net
