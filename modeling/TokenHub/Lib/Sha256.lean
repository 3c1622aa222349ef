import Mathlib.Algebra.Group.Nat.Defs
import Mathlib.Tactic.Common
import TokenHub.Lib.Json

set_option autoImplicit false

namespace TokenHub.Lib.Sha256

open Json

abbrev Word := BitVec 32

def roundConstants : List Word :=
  [0x428a2f98, 0x71374491, 0xb5c0fbcf, 0xe9b5dba5, 0x3956c25b, 0x59f111f1, 0x923f82a4, 0xab1c5ed5,
   0xd807aa98, 0x12835b01, 0x243185be, 0x550c7dc3, 0x72be5d74, 0x80deb1fe, 0x9bdc06a7, 0xc19bf174,
   0xe49b69c1, 0xefbe4786, 0x0fc19dc6, 0x240ca1cc, 0x2de92c6f, 0x4a7484aa, 0x5cb0a9dc, 0x76f988da,
   0x983e5152, 0xa831c66d, 0xb00327c8, 0xbf597fc7, 0xc6e00bf3, 0xd5a79147, 0x06ca6351, 0x14292967,
   0x27b70a85, 0x2e1b2138, 0x4d2c6dfc, 0x53380d13, 0x650a7354, 0x766a0abb, 0x81c2c92e, 0x92722c85,
   0xa2bfe8a1, 0xa81a664b, 0xc24b8b70, 0xc76c51a3, 0xd192e819, 0xd6990624, 0xf40e3585, 0x106aa070,
   0x19a4c116, 0x1e376c08, 0x2748774c, 0x34b0bcb5, 0x391c0cb3, 0x4ed8aa4a, 0x5b9cca4f, 0x682e6ff3,
   0x748f82ee, 0x78a5636f, 0x84c87814, 0x8cc70208, 0x90befffa, 0xa4506ceb, 0xbef9a3f7, 0xc67178f2]

def smallSigma0 (x : Word) : Word := x.rotateRight 7 ^^^ x.rotateRight 18 ^^^ x >>> 3

def smallSigma1 (x : Word) : Word := x.rotateRight 17 ^^^ x.rotateRight 19 ^^^ x >>> 10

def bigSigma0 (x : Word) : Word := x.rotateRight 2 ^^^ x.rotateRight 13 ^^^ x.rotateRight 22

def bigSigma1 (x : Word) : Word := x.rotateRight 6 ^^^ x.rotateRight 11 ^^^ x.rotateRight 25

/-- The next `n` words of the message schedule, from its last sixteen. -/
def schedule : ℕ → List Word → List Word
  | n + 1, w₀ :: ws =>
    w₀ :: schedule n (ws ++
      [smallSigma1 (ws.getD 13 0) + ws.getD 8 0 + smallSigma0 (ws.getD 0 0) + w₀])
  | _, _ => []

structure HashState where
  a : Word
  b : Word
  c : Word
  d : Word
  e : Word
  f : Word
  g : Word
  h : Word

def initial : HashState :=
  ⟨0x6a09e667, 0xbb67ae85, 0x3c6ef372, 0xa54ff53a, 0x510e527f, 0x9b05688c, 0x1f83d9ab, 0x5be0cd19⟩

def round (s : HashState) (kw : Word × Word) : HashState :=
  let t₁ := s.h + bigSigma1 s.e + ((s.e &&& s.f) ^^^ (~~~ s.e &&& s.g)) + kw.1 + kw.2
  let t₂ := bigSigma0 s.a + ((s.a &&& s.b) ^^^ (s.a &&& s.c) ^^^ (s.b &&& s.c))
  ⟨t₁ + t₂, s.a, s.b, s.c, s.d + t₁, s.e, s.f, s.g⟩

def compress (s : HashState) (block : List Word) : HashState :=
  let r := (roundConstants.zip (schedule 64 block)).foldl round s
  ⟨s.a + r.a, s.b + r.b, s.c + r.c, s.d + r.d, s.e + r.e, s.f + r.f, s.g + r.g, s.h + r.h⟩

abbrev Bytes := List (BitVec 8)

def toWords : Bytes → List Word
  | b₀ :: b₁ :: b₂ :: b₃ :: bs => (b₀ ++ b₁ ++ b₂ ++ b₃) :: toWords bs
  | _ => []

def HashState.bytes (s : HashState) : Bytes :=
  [s.a, s.b, s.c, s.d, s.e, s.f, s.g, s.h].flatMap fun w ↦
    [w.extractLsb' 24 8, w.extractLsb' 16 8, w.extractLsb' 8 8, w.extractLsb' 0 8]

/-- The bit `1`, zeros, and the length in bits, to a whole number of blocks. -/
def padding (length : ℕ) : Bytes :=
  0x80 :: (List.replicate ((119 - length % 64) % 64) 0 ++
    (List.range 8).map fun i ↦ BitVec.ofNat 8 (8 * length / 256 ^ (7 - i)))

def blocks : ℕ → List Word → List (List Word)
  | n + 1, ws => ws.take 16 :: blocks n (ws.drop 16)
  | 0, _ => []

def digest (message : Bytes) : Bytes :=
  let words := toWords (message ++ padding message.length)
  ((blocks (words.length / 16) words).foldl compress initial).bytes

def hexText : Bytes → List Char
  | [] => []
  | b :: bs => hexDigit (b.toNat / 16) :: hexDigit b.toNat :: hexText bs

def utf8 (s : String) : Bytes := s.toList.flatMap fun c ↦ (String.utf8EncodeChar c).map (·.toBitVec)

def sha256Hex (value : String) : String := String.ofList (hexText (digest (utf8 value)))

def blockKey (key : Bytes) : Bytes :=
  let short := if key.length ≤ 64 then key else digest key
  short ++ List.replicate (64 - short.length) 0

def hmac (key message : Bytes) : Bytes :=
  let block := blockKey key
  digest (block.map (· ^^^ 0x5c) ++ digest (block.map (· ^^^ 0x36) ++ message))

/-- `hmac.new(key, msg.encode(), hashlib.sha256).hexdigest()`, the key too as a text. -/
def hmacHex (key message : String) : String :=
  String.ofList (hexText (hmac (utf8 key) (utf8 message)))

example : hmacHex "Jefe" "what do ya want for nothing?" =
    "5bdcc146bf60754e6a042426089575c75a003f089d2739839dec58b964ec3843" := by
  decide +kernel

theorem mem_hexText {c : Char} {bs : Bytes} (h : c ∈ hexText bs) : ∃ n, c = hexDigit n := by
  induction bs with
  | nil => exact absurd h List.not_mem_nil
  | cons b bs ih =>
    rw [hexText, List.mem_cons, List.mem_cons] at h
    rcases h with rfl | rfl | h
    · exact ⟨_, rfl⟩
    · exact ⟨_, rfl⟩
    · exact ih h

theorem not_mem_hexText {c : Char} {bs : Bytes} (hc : c.isAlphanum = false) : c ∉ hexText bs := by
  intro h
  obtain ⟨n, rfl⟩ := mem_hexText h
  have hdigit : ∀ d < 16, (Nat.digitChar d).isAlphanum = true := by decide
  rw [hexDigit, hdigit _ (Nat.mod_lt _ (by omega))] at hc
  exact Bool.noConfusion hc

end TokenHub.Lib.Sha256
