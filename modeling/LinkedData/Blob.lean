/-
  LinkedData.Blob — content addressed by its hash.

  A blob's location is the hash of its content in hexadecimal, so the same content has the
  same location wherever it is kept. A store of blobs gives back the content of a location;
  storing can fail, and the store it leaves is given back in any case. A digest is what a
  client says of the content that it sends.
-/

import LinkedData.Blake3
import LinkedData.Error
import LinkedData.Hex
import LinkedData.Resource

namespace LinkedData

class BlobStore (β : Type) where
  /-- Keep some content; its description says where. -/
  store : β → Bytes → Option String → Except StorageError Binary × β
  /-- The content at a location, if there is any. -/
  get : β → Iri → Except StorageError (Option Bytes)

namespace Blob

def scheme : String := "urn:blake3:"

def algorithm : String := "blake3"

/-- The location of a hash. -/
def locationOf (hex : String) : Iri := ⟨scheme ++ hex⟩

/-- The hash in a location. -/
def hexOf (location : Iri) : Except StorageError String :=
  if scheme.toList.isPrefixOf location.text.toList then
    .ok (String.ofList (location.text.toList.drop scheme.toList.length))
  else .error (.invalidPath location.text)

def describe (content : Bytes) (mime : Option String) : Binary :=
  let hex := Blake3.hexOf content
  ⟨locationOf hex, mime, UInt64.ofNat content.length, algorithm ++ "=" ++ hex⟩

end Blob

/-! ## Digests -/

namespace Digest

/-- Why a digest that a client sends is refused. -/
inductive Fault
  | form (digest : String)
  | algorithm (name : String)
  | value (fault : Hex.Fault)
  | mismatch (expected actual : Bytes)
  deriving DecidableEq, Repr

def Fault.message : Fault → String
  | form d => "Malformed digest: " ++ d
  | algorithm a => "Unsupported digest algorithm: " ++ a
  | value f => "Malformed digest value: " ++ f.message
  | mismatch e a => "Digest mismatch: expected " ++ Hex.encode e ++ ", got " ++ Hex.encode a

/-- Check `content` against a digest: a name of the algorithm in any case, an equals sign, and the
    hash in hexadecimal. -/
def verify (content : Bytes) (digest : String) : Except Fault Unit :=
  let cs := digest.toList
  if ¬ cs.contains '=' then .error (.form digest)
  else
    let name := cs.takeWhile (· ≠ '=')
    let text := String.ofList ((cs.dropWhile (· ≠ '=')).drop 1)
    if name.map Char.toLower ≠ Blob.algorithm.toList then .error (.algorithm (String.ofList name))
    else match Hex.decode text with
      | .error f => .error (.value f)
      | .ok expected =>
        if expected = Blake3.hash content then .ok () else .error (.mismatch expected (Blake3.hash content))

end Digest

end LinkedData
