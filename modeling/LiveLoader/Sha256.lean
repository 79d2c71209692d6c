/-!
# SHA-256

The digest of a byte string in 64 lower-case hexadecimal digits, after FIPS 180-4.
-/

namespace LiveLoader.Sha256

def roundConstants : Array UInt32 := #[
  0x428a2f98, 0x71374491, 0xb5c0fbcf, 0xe9b5dba5, 0x3956c25b, 0x59f111f1, 0x923f82a4, 0xab1c5ed5,
  0xd807aa98, 0x12835b01, 0x243185be, 0x550c7dc3, 0x72be5d74, 0x80deb1fe, 0x9bdc06a7, 0xc19bf174,
  0xe49b69c1, 0xefbe4786, 0x0fc19dc6, 0x240ca1cc, 0x2de92c6f, 0x4a7484aa, 0x5cb0a9dc, 0x76f988da,
  0x983e5152, 0xa831c66d, 0xb00327c8, 0xbf597fc7, 0xc6e00bf3, 0xd5a79147, 0x06ca6351, 0x14292967,
  0x27b70a85, 0x2e1b2138, 0x4d2c6dfc, 0x53380d13, 0x650a7354, 0x766a0abb, 0x81c2c92e, 0x92722c85,
  0xa2bfe8a1, 0xa81a664b, 0xc24b8b70, 0xc76c51a3, 0xd192e819, 0xd6990624, 0xf40e3585, 0x106aa070,
  0x19a4c116, 0x1e376c08, 0x2748774c, 0x34b0bcb5, 0x391c0cb3, 0x4ed8aa4a, 0x5b9cca4f, 0x682e6ff3,
  0x748f82ee, 0x78a5636f, 0x84c87814, 0x8cc70208, 0x90befffa, 0xa4506ceb, 0xbef9a3f7, 0xc67178f2]

structure Chain where
  a : UInt32
  b : UInt32
  c : UInt32
  d : UInt32
  e : UInt32
  f : UInt32
  g : UInt32
  h : UInt32

def start : Chain :=
  ⟨0x6a09e667, 0xbb67ae85, 0x3c6ef372, 0xa54ff53a, 0x510e527f, 0x9b05688c, 0x1f83d9ab, 0x5be0cd19⟩

def rotate (x : UInt32) (n : UInt32) : UInt32 := (x >>> n) ||| (x <<< (32 - n))

/-- One round with the schedule word and the constant already added up. -/
def round (s : Chain) (word : UInt32) : Chain :=
  let s1 := rotate s.e 6 ^^^ rotate s.e 11 ^^^ rotate s.e 25
  let ch := (s.e &&& s.f) ^^^ ((~~~ s.e) &&& s.g)
  let t1 := s.h + s1 + ch + word
  let s0 := rotate s.a 2 ^^^ rotate s.a 13 ^^^ rotate s.a 22
  let maj := (s.a &&& s.b) ^^^ (s.a &&& s.c) ^^^ (s.b &&& s.c)
  ⟨t1 + (s0 + maj), s.a, s.b, s.c, s.d + t1, s.e, s.f, s.g⟩

/-- Extends the schedule by `n` words. -/
def extend : Nat → Array UInt32 → Array UInt32
  | 0, w => w
  | n + 1, w =>
    let at_ (k : Nat) : UInt32 := w.getD (w.size - k) 0
    let x := at_ 15
    let y := at_ 2
    let s0 := rotate x 7 ^^^ rotate x 18 ^^^ (x >>> 3)
    let s1 := rotate y 17 ^^^ rotate y 19 ^^^ (y >>> 10)
    extend n (w.push (at_ 16 + s0 + at_ 7 + s1))

def addChains (s t : Chain) : Chain :=
  ⟨s.a + t.a, s.b + t.b, s.c + t.c, s.d + t.d, s.e + t.e, s.f + t.f, s.g + t.g, s.h + t.h⟩

/-- Takes up one block of sixteen words. -/
def compress (s : Chain) (block : List UInt32) : Chain :=
  let w := extend 48 block.toArray
  let sums := List.zipWith (· + ·) w.toList roundConstants.toList
  addChains s (sums.foldl round s)

/-- A one bit, zero bits up to eight bytes below a whole block, and the length in bits. -/
def pad (message : List UInt8) : List UInt8 :=
  let n := message.length
  let zeros := (64 - (n + 9) % 64) % 64
  let length : List UInt8 := [56, 48, 40, 32, 24, 16, 8, 0].map fun k => ((n * 8) >>> k).toUInt8
  message ++ 0x80 :: List.replicate zeros 0 ++ length

def word (a b c d : UInt8) : UInt32 :=
  (a.toUInt32 <<< 24) ||| (b.toUInt32 <<< 16) ||| (c.toUInt32 <<< 8) ||| d.toUInt32

def words : List UInt8 → List UInt32
  | a :: b :: c :: d :: r => word a b c d :: words r
  | _ => []

/-- Folds over the blocks of sixteen words; `n` bounds their number. -/
def digestWords : Nat → Chain → List UInt32 → Chain
  | 0, s, _ => s
  | _ + 1, s, [] => s
  | n + 1, s, ws => digestWords n (compress s (ws.take 16)) (ws.drop 16)

def hexDigit (n : Nat) : Char := Nat.digitChar (n % 16)

def hexWord (w : UInt32) : List Char :=
  [28, 24, 20, 16, 12, 8, 4, 0].map fun k => hexDigit (w.toNat >>> k)

def hex (s : Chain) : String :=
  String.ofList ([s.a, s.b, s.c, s.d, s.e, s.f, s.g, s.h].flatMap hexWord)

def digest (message : List UInt8) : String :=
  let ws := words (pad message)
  hex (digestWords ws.length start ws)

end LiveLoader.Sha256

namespace LiveLoader

/-- The fingerprint of a text: the digest of its UTF-8 bytes. -/
def fingerprint (s : String) : String := Sha256.digest s.toUTF8.toList

end LiveLoader
