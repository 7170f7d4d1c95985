import IntraCloud.Exports.Container
import IntraCloud.Python.JsonErrors

/-!
# What reading a container raises

`read_container_header` and `read_container_payload` again, each step with the exception it raises on what
does not fit. A passphrase may hold any code points, lone surrogates too.
-/

namespace Exports.ContainerErrors

open Python

variable {Key α : Type}

/-! ## Exceptions -/

/-- `keyDerivation` is whatever `hash_secret_raw` raises. -/
inductive Raised where
  | containerError (message : String)
  | decryptionFailed (message : String)
  | attributeError
  | keyDerivation
  | keyError
  | overflowError
  | recursionError
  | typeError
  | unicodeDecodeError
  | unicodeEncodeError
  | valueError
  deriving DecidableEq, Repr

/-- `isinstance(exc, ContainerError)`. -/
def Raised.isContainerError : Raised → Bool
  | .containerError _ | .decryptionFailed _ => true
  | _ => false

/-- No other exception escapes. -/
def Handled (r : Except Raised α) : Prop := ∀ e, r = .error e → e.isContainerError = true

/-! ## The header -/

def headerBytes (data : Bytes) : Bytes := (data.drop 12).take (headerLength data)

/-- `read_container_header`, where JSON may nest `depth` levels. -/
def readContainerHeader (depth : Nat) (data : Bytes) : Except Raised PyJson :=
  if data.take 8 ≠ MAGIC then
    .error (.containerError "not an Intra-Cloud portable package (bad magic bytes)")
  else
    match Json.loadBytesE depth (headerBytes data) with
    | .ok header => .ok header
    | .error (.scan .jsonDecodeError) => .error (.containerError "corrupt package header")
    | .error (.scan .recursionError) => .error .recursionError
    | .error (.scan .valueError) => .error .valueError
    | .error (.scan .outOfFuel) => .error .valueError
    | .error .unicodeDecodeError => .error .unicodeDecodeError

/-! ## The payload -/

/-- `value[key]` with a literal key. -/
def subscript (value : PyJson) (key : String) : Except Raised PyJson :=
  match value with
  | .dict members =>
    match Json.member? key.toList members with
    | none => .error .keyError
    | some v => .ok v
  | _ => .error .typeError

/-- `bytes.fromhex(value)`. -/
def fromHexValue : PyJson → Except Raised Bytes
  | .str s =>
    match fromHex s with
    | none => .error .valueError
    | some bytes => .ok bytes
  | _ => .error .typeError

/-- `bytes.fromhex(encryption[key])`. -/
def hexField (encryption : PyJson) (key : String) : Except Raised Bytes :=
  (subscript encryption key).bind fromHexValue

/-- What stands in the `try` block: the salt, the nonce and `kdf_params`. -/
def metadata (encryption : PyJson) : Except Raised (Bytes × Bytes × PyJson) :=
  (hexField encryption "salt").bind fun salt => (hexField encryption "nonce").bind fun nonce =>
    (subscript encryption "kdf_params").map fun params => (salt, nonce, params)

/-- The `try` statement, which catches `KeyError` and `ValueError`. -/
def readMetadata (encryption : PyJson) : Except Raised (Bytes × Bytes × PyJson) :=
  match metadata encryption with
  | .ok read => .ok read
  | .error .keyError | .error .valueError =>
    .error (.containerError "corrupt encryption metadata in package header")
  | .error e => .error e

/-- `passphrase.encode("utf-8")`; nothing stands for the `UnicodeEncodeError`. -/
def encodePassphrase? (passphrase : List (Fin 0x110000)) : Option Bytes :=
  (passphrase.mapM fun n => codePoint? none n.val).map utf8Encode

theorem toNat_lt (c : Char) : c.toNat < 0x110000 := by
  have hvalid : c.val.toNat < 0xD800 ∨ 0xDFFF < c.val.toNat ∧ c.val.toNat < 0x110000 := c.valid
  show c.val.toNat < 0x110000
  omega

/-- The code points of a text. -/
def codePoints (s : List Char) : List (Fin 0x110000) := s.map fun c => ⟨c.toNat, toNat_lt c⟩

/-- The call of `hash_secret_raw`, after its arguments. -/
def headerKey (p : Primitives Key) (passphrase : List (Fin 0x110000)) (salt : Bytes) (params : PyJson) :
    Except Raised Key :=
  match encodePassphrase? passphrase with
  | none => .error .unicodeEncodeError
  | some secret =>
    (subscript params "time_cost").bind fun timeCost =>
      (subscript params "memory_cost_kib").bind fun memoryCost =>
        (subscript params "parallelism").bind fun parallelism =>
          match p.hashSecretRaw secret salt timeCost memoryCost parallelism with
          | none => .error .keyDerivation
          | some key => .ok key

/-- The most bytes `AESGCM` takes. -/
def maxData : Nat := 2147483647

/-- `AESGCM(key).decrypt`. -/
def decryptPayload (p : Primitives Key) (key : Key) (nonce payload : Bytes) : Except Raised Bytes :=
  if nonce.length < 8 ∨ 128 < nonce.length then .error .valueError
  else if maxData < payload.length then .error .overflowError
  else
    match p.decrypt key nonce payload with
    | some plain => .ok plain
    | none => .error (.decryptionFailed "wrong passphrase, or the package is corrupted/tampered with")

/-- The payload of an encrypted container. -/
def readEncrypted (p : Primitives Key) (payload : Bytes) (encryption : PyJson)
    (passphrase : Option (List (Fin 0x110000))) : Except Raised Bytes :=
  match passphrase with
  | none => .error (.decryptionFailed "this package is encrypted; a passphrase is required")
  | some passphrase =>
    (readMetadata encryption).bind fun read =>
      (headerKey p passphrase read.1 read.2.2).bind fun key => decryptPayload p key read.2.1 payload

/-- `read_container_payload`. A header that is no `dict` has no `get`. -/
def readContainerPayload (p : Primitives Key) (depth : Nat) (data : Bytes)
    (passphrase : Option (List (Fin 0x110000))) : Except Raised Bytes :=
  (readContainerHeader depth data).bind fun header =>
    match header with
    | .dict members =>
      match encryptionOf members with
      | none => .ok (payloadOf data)
      | some encryption => readEncrypted p (payloadOf data) encryption passphrase
    | _ => .error .attributeError

/-! ## Headers that fit -/

/-- The header is text, with no integer of too many digits and not nested too deep; it may be malformed. -/
def LoadsQuietly (depth : Nat) (header : Bytes) : Prop :=
  ∀ e, Json.loadBytesE depth header = .error e → e = .scan .jsonDecodeError

/-- The member is a string where it is there. -/
def TextOrMissing (key : String) (members : List (List Char × PyJson)) : Prop :=
  ∀ v, Json.member? key.toList members = some v → ∃ s, v = .str s

/-- The member is the hexadecimal text of bytes. -/
def HexMember (key : String) (members : List (List Char × PyJson)) (bytes : Bytes) : Prop :=
  ∃ s, Json.member? key.toList members = some (.str s) ∧ fromHex s = some bytes

/-- The passphrase has an encoding, the three cost factors are there, and the derivation takes them. -/
def KeyFits (p : Primitives Key) (passphrase : List (Fin 0x110000)) (salt : Bytes) (params : PyJson) : Prop :=
  ∃ secret costs timeCost memoryCost parallelism, encodePassphrase? passphrase = some secret ∧
    params = .dict costs ∧ Json.member? "time_cost".toList costs = some timeCost ∧
    Json.member? "memory_cost_kib".toList costs = some memoryCost ∧
    Json.member? "parallelism".toList costs = some parallelism ∧
    (p.hashSecretRaw secret salt timeCost memoryCost parallelism).isSome = true

/-- The encryption is an object, its salt and its nonce are strings, and where they are hexadecimal and
`kdf_params` is there, the rest fits as well. -/
def EncryptionFits (p : Primitives Key) (passphrase : List (Fin 0x110000)) (payload : Bytes)
    (encryption : PyJson) : Prop :=
  ∃ members, encryption = .dict members ∧ TextOrMissing "salt" members ∧
    ∀ salt, HexMember "salt" members salt → TextOrMissing "nonce" members ∧
      ∀ nonce params, HexMember "nonce" members nonce →
        Json.member? "kdf_params".toList members = some params →
          KeyFits p passphrase salt params ∧ 8 ≤ nonce.length ∧ nonce.length ≤ 128 ∧
            payload.length ≤ maxData

/-- Behind the magic bytes there is a header that loads quietly; where it is JSON it is an object, and where
its encryption is read, that fits. -/
def Fits (p : Primitives Key) (depth : Nat) (data : Bytes) (passphrase : Option (List (Fin 0x110000))) :
    Prop :=
  data.take 8 = MAGIC → LoadsQuietly depth (headerBytes data) ∧
    ∀ header, Json.loadBytesE depth (headerBytes data) = .ok header →
      ∃ members, header = .dict members ∧
        ∀ encryption secret, encryptionOf members = some encryption → passphrase = some secret →
          EncryptionFits p secret (payloadOf data) encryption

end Exports.ContainerErrors
