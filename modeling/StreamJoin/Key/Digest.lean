import StreamJoin.Key.Basic

namespace StreamJoin

/-!
# Digests of keys

A key is hashed through the bytes that it feeds to the hash.  A value feeds a byte
for its type and then its content: numbers in little-endian bytes of their width,
texts as UTF-8 closed by a byte that UTF-8 never uses, byte strings after their
length.  A key feeds its length and then its values.  No feed of a value begins
another one, so different keys feed different bytes.
-/

/-- The lowest `count` bytes of a number, the least significant one first. -/
def littleEndian : (count number : Nat) → List UInt8
  | 0, _ => []
  | count + 1, number => UInt8.ofNat number :: littleEndian count (number / 256)

/-- The UTF-8 bytes of a text. -/
def utf8Bytes (text : String) : List UInt8 :=
  text.toList.flatMap String.utf8EncodeChar

/-- A length as it is fed to a hash. -/
def lengthFeed (length : Nat) : List UInt8 := littleEndian 8 length

namespace Value

/-- The bytes that a value feeds to a hash. -/
def feed : Value → List UInt8
  | .null => [0]
  | .boolean truth => [1, if truth then 1 else 0]
  | .int number => 2 :: littleEndian 4 number.toUInt32.toNat
  | .long number => 3 :: littleEndian 8 number.toUInt64.toNat
  | .float word => 4 :: littleEndian 4 word.toNat
  | .double word => 5 :: littleEndian 8 word.toNat
  | .string text => 6 :: (utf8Bytes text ++ [0xFF])
  | .bytes content => 7 :: (lengthFeed content.length ++ content)

end Value

namespace Key

/-- The bytes that a key feeds to a hash. -/
def feed (key : Key) : List UInt8 :=
  lengthFeed key.size ++ key.values.flatMap Value.feed

instance : Hashable Key where
  hash key := key.feed.foldl (fun digest byte => mixHash digest (hash byte)) 7

end Key

end StreamJoin
