/-!
# SHA-256

The digest of a sequence of bytes. The bytes are padded to whole blocks of
64: a one bit, zeros, and the length in bits in the last eight bytes. Eight
words of 32 bits are then carried through the blocks; each block is spread
over 64 words, and each of those stirs the eight words once.
-/

namespace CallFlow.Sha256

/-- The fraction bits of the square roots of the first eight primes. -/
def start : Array UInt32 :=
  #[0x6a09e667, 0xbb67ae85, 0x3c6ef372, 0xa54ff53a, 0x510e527f, 0x9b05688c, 0x1f83d9ab,
   0x5be0cd19]

/-- The fraction bits of the cube roots of the first 64 primes. -/
def constants : Array UInt32 :=
  #[0x428a2f98, 0x71374491, 0xb5c0fbcf, 0xe9b5dba5, 0x3956c25b, 0x59f111f1, 0x923f82a4,
   0xab1c5ed5, 0xd807aa98, 0x12835b01, 0x243185be, 0x550c7dc3, 0x72be5d74, 0x80deb1fe,
   0x9bdc06a7, 0xc19bf174, 0xe49b69c1, 0xefbe4786, 0x0fc19dc6, 0x240ca1cc, 0x2de92c6f,
   0x4a7484aa, 0x5cb0a9dc, 0x76f988da, 0x983e5152, 0xa831c66d, 0xb00327c8, 0xbf597fc7,
   0xc6e00bf3, 0xd5a79147, 0x06ca6351, 0x14292967, 0x27b70a85, 0x2e1b2138, 0x4d2c6dfc,
   0x53380d13, 0x650a7354, 0x766a0abb, 0x81c2c92e, 0x92722c85, 0xa2bfe8a1, 0xa81a664b,
   0xc24b8b70, 0xc76c51a3, 0xd192e819, 0xd6990624, 0xf40e3585, 0x106aa070, 0x19a4c116,
   0x1e376c08, 0x2748774c, 0x34b0bcb5, 0x391c0cb3, 0x4ed8aa4a, 0x5b9cca4f, 0x682e6ff3,
   0x748f82ee, 0x78a5636f, 0x84c87814, 0x8cc70208, 0x90befffa, 0xa4506ceb, 0xbef9a3f7,
   0xc67178f2]

/-- Turns a word to the right. -/
def rotate (x : UInt32) (n : UInt32) : UInt32 := (x >>> n) ||| (x <<< (32 - n))

/-- The zeros and the length behind the one bit that ends the message. -/
def paddedLength (bytes : Nat) : Nat := (bytes + 9 + 63) / 64 * 64

/-- The message, padded to whole blocks. -/
def padded (message : Array UInt8) : Array UInt8 :=
  let size := message.size
  let zeros := List.replicate (paddedLength size - size - 9) (0 : UInt8)
  let bits := 8 * size
  let length := (List.range 8).map fun i => UInt8.ofNat (bits / Nat.pow 256 (7 - i) % 256)
  ((0x80 :: zeros) ++ length).foldl Array.push message

/-- The word of four bytes that starts at a place. -/
def wordAt (bytes : Array UInt8) (place : Nat) : UInt32 :=
  (List.range 4).foldl (fun w i => (w <<< 8) ||| (bytes.getD (place + i) 0).toUInt32) 0

/-- One more word of a block's schedule. -/
def extend (ws : Array UInt32) : Array UInt32 :=
  let back (n : Nat) : UInt32 := ws.getD (ws.size - n) 0
  let s0 := rotate (back 15) 7 ^^^ rotate (back 15) 18 ^^^ (back 15 >>> 3)
  let s1 := rotate (back 2) 17 ^^^ rotate (back 2) 19 ^^^ (back 2 >>> 10)
  ws.push (back 16 + s0 + back 7 + s1)

/-- The 64 words a block is spread over. -/
def schedule (bytes : Array UInt8) (block : Nat) : Array UInt32 :=
  let own := (List.range 16).foldl (fun ws i => ws.push (wordAt bytes (64 * block + 4 * i))) #[]
  (List.range 48).foldl (fun ws _ => extend ws) own

/-- The eight words that are carried along. -/
structure State where
  /-- The first word. -/
  a : UInt32
  /-- The second word. -/
  b : UInt32
  /-- The third word. -/
  c : UInt32
  /-- The fourth word. -/
  d : UInt32
  /-- The fifth word. -/
  e : UInt32
  /-- The sixth word. -/
  f : UInt32
  /-- The seventh word. -/
  g : UInt32
  /-- The eighth word. -/
  h : UInt32

/-- Stirs the eight words once, with a word of the schedule and its
constant. -/
def stir (s : State) (word constant : UInt32) : State :=
  let s1 := rotate s.e 6 ^^^ rotate s.e 11 ^^^ rotate s.e 25
  let choice := (s.e &&& s.f) ^^^ ((~~~ s.e) &&& s.g)
  let t1 := s.h + s1 + choice + constant + word
  let s0 := rotate s.a 2 ^^^ rotate s.a 13 ^^^ rotate s.a 22
  let majority := (s.a &&& s.b) ^^^ (s.a &&& s.c) ^^^ (s.b &&& s.c)
  ⟨t1 + s0 + majority, s.a, s.b, s.c, s.d + t1, s.e, s.f, s.g⟩

/-- Adds two states word by word. -/
def State.add (s t : State) : State :=
  ⟨s.a + t.a, s.b + t.b, s.c + t.c, s.d + t.d, s.e + t.e, s.f + t.f, s.g + t.g, s.h + t.h⟩

/-- The state before the first block. -/
def initial : State :=
  let word (i : Nat) : UInt32 := start.getD i 0
  ⟨word 0, word 1, word 2, word 3, word 4, word 5, word 6, word 7⟩

/-- Carries the state through one block. -/
def compress (bytes : Array UInt8) (s : State) (block : Nat) : State :=
  let ws := schedule bytes block
  s.add ((List.range 64).foldl (fun t i => stir t (ws.getD i 0) (constants.getD i 0)) s)

/-- The state behind the last block. -/
def final (message : Array UInt8) : State :=
  let bytes := padded message
  (List.range (bytes.size / 64)).foldl (compress bytes) initial

/-- A word in base sixteen. -/
def hexWord (w : UInt32) : List Char :=
  let ds := Nat.toDigits 16 w.toNat
  List.replicate (8 - ds.length) '0' ++ ds

/-- The digest of the bytes of a text, in base sixteen. -/
def hexDigest (text : String) : String :=
  let s := final text.toUTF8.data
  String.ofList ([s.a, s.b, s.c, s.d, s.e, s.f, s.g, s.h].flatMap hexWord)

end CallFlow.Sha256
