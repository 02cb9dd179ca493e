import EinkLab.Text.Utf8
import Mathlib.Algebra.Group.Nat.Defs
import Mathlib.Data.List.Basic

/-!
# SHA-1

The digest of the standard library that the image id is made of.  All that is used of it is its
length.
-/

namespace EinkLab.RecoveryImage

open EinkLab.Text

/-- Four bytes, the highest first. -/
def be32 (n : UInt32) : Bytes :=
  [(n >>> 24).toUInt8, (n >>> 16).toUInt8, (n >>> 8).toUInt8, n.toUInt8]

def rotl (n : UInt32) (k : UInt32) : UInt32 := (n <<< k) ||| (n >>> (32 - k))

structure Sha1State where
  a : UInt32
  b : UInt32
  c : UInt32
  d : UInt32
  e : UInt32
  deriving DecidableEq, Repr

def Sha1State.initial : Sha1State :=
  ⟨0x67452301, 0xefcdab89, 0x98badcfe, 0x10325476, 0xc3d2e1f0⟩

/-- The message schedule: the words until now, the latest first. -/
def schedule : Nat → List UInt32 → List UInt32
  | 0, words => words
  | n + 1, words =>
    schedule n (rotl (words.getD 2 0 ^^^ words.getD 7 0 ^^^ words.getD 13 0 ^^^ words.getD 15 0) 1
      :: words)

/-- The function and the constant of round `t`. -/
def roundOf (t : Nat) (b c d : UInt32) : UInt32 × UInt32 :=
  if t < 20 then ((b &&& c) ||| (b.complement &&& d), 0x5a827999)
  else if t < 40 then (b ^^^ c ^^^ d, 0x6ed9eba1)
  else if t < 60 then ((b &&& c) ||| (b &&& d) ||| (c &&& d), 0x8f1bbcdc)
  else (b ^^^ c ^^^ d, 0xca62c1d6)

def rounds : Nat → List UInt32 → Sha1State → Sha1State
  | _, [], s => s
  | t, w :: words, s =>
    let (f, k) := roundOf t s.b s.c s.d
    rounds (t + 1) words ⟨rotl s.a 5 + f + s.e + k + w, s.a, rotl s.b 30, s.c, s.d⟩

/-- The words of a block. -/
def wordsOf : Bytes → List UInt32
  | a :: b :: c :: d :: bs =>
    ((a.toUInt32 <<< 24) ||| (b.toUInt32 <<< 16) ||| (c.toUInt32 <<< 8) ||| d.toUInt32) ::
      wordsOf bs
  | _ => []

def compressBlock (s : Sha1State) (block : Bytes) : Sha1State :=
  let r := rounds 0 (schedule 64 (wordsOf block).reverse).reverse s
  ⟨s.a + r.a, s.b + r.b, s.c + r.c, s.d + r.d, s.e + r.e⟩

def compressBlocks : Nat → Bytes → Sha1State → Sha1State
  | 0, _, s => s
  | n + 1, message, s => compressBlocks n (message.drop 64) (compressBlock s (message.take 64))

/-- `hashlib.sha1(message).digest()` -/
@[irreducible] def sha1 (message : Bytes) : Bytes :=
  let bits := 8 * message.length
  let padded := message ++ (0x80 :: List.replicate ((119 - message.length % 64) % 64) 0) ++
    (be32 (UInt32.ofNat (bits / 2 ^ 32)) ++ be32 (UInt32.ofNat bits))
  let s := compressBlocks (padded.length / 64) padded .initial
  be32 s.a ++ (be32 s.b ++ (be32 s.c ++ (be32 s.d ++ be32 s.e)))

theorem length_sha1 (message : Bytes) : (sha1 message).length = 20 := by
  unfold sha1
  rfl

end EinkLab.RecoveryImage
