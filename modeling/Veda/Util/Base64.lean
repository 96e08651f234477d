import Veda.Cpp

/-! Base64 encoding of the parameter sets. -/
namespace Veda.Util

def kAlphabet : Bytes :=
  ascii "ABCDEFGHIJKLMNOPQRSTUVWXYZabcdefghijklmnopqrstuvwxyz0123456789+/"

/-- `kAlphabet[(triple >> shift) & 0x3F]`. -/
def sextet (triple : UInt32) (shift : UInt32) : UInt8 :=
  kAlphabet.getD ((triple >>> shift) &&& 0x3F).toNat 0

/-- Three bytes at a time, then a tail of one or two bytes padded with `=`. -/
def base64Encode : Bytes → Bytes
  | [] => []
  | [a] =>
    let triple := a.toUInt32 <<< 16
    [sextet triple 18, sextet triple 12, 61, 61]
  | [a, b] =>
    let triple := (a.toUInt32 <<< 16) ||| (b.toUInt32 <<< 8)
    [sextet triple 18, sextet triple 12, sextet triple 6, 61]
  | a :: b :: c :: rest =>
    let triple := (a.toUInt32 <<< 16) ||| (b.toUInt32 <<< 8) ||| c.toUInt32
    sextet triple 18 :: sextet triple 12 :: sextet triple 6 :: sextet triple 0 ::
      base64Encode rest

example : base64Encode (ascii "fooba") = ascii "Zm9vYmE=" := by decide +kernel

end Veda.Util
