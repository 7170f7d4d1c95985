import IntraCloud.Python.Codecs

/-!
# The container of a package

`exports/container.py`: a magic, the length of a header, the header as JSON, and the archive or its
ciphertext. The key derivation and the cipher are parameters.
-/

namespace Exports

open Python

/-- What `argon2` and `cryptography` provide. `hashSecretRaw` takes the cost factors as the header has
them, and is `none` where it raises; `decrypt` is `none` where it raises `InvalidTag`. -/
structure Primitives (Key : Type) where
  hashSecretRaw : (secret salt : Bytes) → (timeCost memoryCost parallelism : PyJson) → Option Key
  encrypt : Key → (nonce data : Bytes) → Bytes
  decrypt : Key → (nonce data : Bytes) → Option Bytes

/-- `b"ICPKG001"`. -/
def MAGIC : Bytes := [0x49, 0x43, 0x50, 0x4B, 0x47, 0x30, 0x30, 0x31]

def ARGON2_TIME_COST : Int := 3

def ARGON2_MEMORY_COST_KIB : Int := 256 * 1024

def ARGON2_PARALLELISM : Int := 4

def ARGON2_SALT_BYTES : Nat := 16

def AES_NONCE_BYTES : Nat := 12

/-- What `os.urandom` gives to one container. -/
structure Randomness where
  salt : Bytes
  nonce : Bytes
  salt_length : salt.length = ARGON2_SALT_BYTES
  nonce_length : nonce.length = AES_NONCE_BYTES

variable {Key : Type}

/-! ## Writing -/

/-- `_derive_key`. -/
def deriveKey (p : Primitives Key) (passphrase : List Char) (salt : Bytes) : Option Key :=
  p.hashSecretRaw (utf8Encode passphrase) salt (.int ARGON2_TIME_COST) (.int ARGON2_MEMORY_COST_KIB)
    (.int ARGON2_PARALLELISM)

/-- `encryption_meta`. -/
def encryptionMeta (r : Randomness) : PyJson :=
  .dict [
    ("algorithm".toList, .str "AES-256-GCM".toList),
    ("kdf".toList, .str "argon2id".toList),
    ("kdf_params".toList, .dict [
      ("time_cost".toList, .int ARGON2_TIME_COST),
      ("memory_cost_kib".toList, .int ARGON2_MEMORY_COST_KIB),
      ("parallelism".toList, .int ARGON2_PARALLELISM)]),
    ("salt".toList, .str (hexOfBytes r.salt)),
    ("nonce".toList, .str (hexOfBytes r.nonce))]

/-- The value of the header. -/
def headerValue (encryption : PyJson) : PyJson :=
  .dict [
    ("format".toList, .str "intracloud-portable-container".toList),
    ("encryption".toList, encryption)]

/-- `MAGIC + len(header).to_bytes(4, "big") + header + payload`. -/
def frame (encryption : PyJson) (payload : Bytes) : Option Bytes :=
  let header := utf8Encode (Json.dumps (headerValue encryption))
  (toBytes? 4 header.length).map fun length => MAGIC ++ (length ++ (header ++ payload))

/-- `write_container`, or `none` where it raises. -/
def writeContainer (p : Primitives Key) (r : Randomness) (zipBytes : Bytes)
    (passphrase : Option (List Char)) : Option Bytes :=
  match passphrase with
  | none => frame .null zipBytes
  | some passphrase =>
    (deriveKey p passphrase r.salt).bind fun key =>
      frame (encryptionMeta r) (p.encrypt key r.nonce zipBytes)

/-! ## Reading -/

/-- What `read_container_payload` raises. -/
inductive ReadError where
  | containerError (message : String)
  | decryptionFailed (message : String)
  | other
  deriving DecidableEq, Repr

/-- `int.from_bytes(data[8:12], "big")`. -/
def headerLength (data : Bytes) : Nat := fromBytes ((data.take 12).drop 8)

/-- What follows the header. -/
def payloadOf (data : Bytes) : Bytes := data.drop (12 + headerLength data)

/-- `read_container_header`. A header that is no text, or that has a number of too many digits, raises
another `ValueError` than the `JSONDecodeError` of the last message. -/
def readContainerHeader (data : Bytes) : Except ReadError PyJson :=
  if data.take 8 ≠ MAGIC then
    .error (.containerError "not an Intra-Cloud portable package (bad magic bytes)")
  else
    match Json.loadBytes ((data.drop 12).take (headerLength data)) with
    | some header => .ok header
    | none => .error (.containerError "corrupt package header")

/-- `ContainerError("corrupt encryption metadata in package header")`. -/
def corruptMetadata : ReadError := .containerError "corrupt encryption metadata in package header"

/-- `bytes.fromhex(encryption[key])`. -/
def hexField (key : String) (encryption : List (List Char × PyJson)) : Except ReadError Bytes :=
  match Json.member? key.toList encryption with
  | none => .error corruptMetadata
  | some (.str s) =>
    match fromHex s with
    | none => .error corruptMetadata
    | some bytes => .ok bytes
  | some _ => .error .other

/-- The salt, the nonce and `kdf_params`. -/
def readMetadata (encryption : PyJson) : Except ReadError (Bytes × Bytes × PyJson) :=
  match encryption with
  | .dict members => do
    let salt ← hexField "salt" members
    let nonce ← hexField "nonce" members
    match Json.member? "kdf_params".toList members with
    | none => .error corruptMetadata
    | some params => .ok (salt, nonce, params)
  | _ => .error .other

/-- The key that the cost factors of a header give. -/
def headerKey (p : Primitives Key) (passphrase : List Char) (salt : Bytes) (params : PyJson) :
    Option Key :=
  match params with
  | .dict members => do
    let timeCost ← Json.member? "time_cost".toList members
    let memoryCost ← Json.member? "memory_cost_kib".toList members
    let parallelism ← Json.member? "parallelism".toList members
    p.hashSecretRaw (utf8Encode passphrase) salt timeCost memoryCost parallelism
  | _ => none

/-- `AESGCM(key).decrypt`, which takes nonces of 8 to 128 bytes. -/
def decryptPayload (p : Primitives Key) (key : Key) (nonce payload : Bytes) : Except ReadError Bytes :=
  if nonce.length < 8 ∨ 128 < nonce.length then .error .other
  else
    match p.decrypt key nonce payload with
    | some plain => .ok plain
    | none =>
      .error (.decryptionFailed "wrong passphrase, or the package is corrupted/tampered with")

/-- The payload of an encrypted container. -/
def readEncrypted (p : Primitives Key) (payload : Bytes) (encryption : PyJson)
    (passphrase : Option (List Char)) : Except ReadError Bytes :=
  match passphrase with
  | none => .error (.decryptionFailed "this package is encrypted; a passphrase is required")
  | some passphrase => do
    let (salt, nonce, params) ← readMetadata encryption
    match headerKey p passphrase salt params with
    | none => .error .other
    | some key => decryptPayload p key nonce payload

/-- `header.get("encryption")`, where it is not `None`. -/
def encryptionOf (members : List (List Char × PyJson)) : Option PyJson :=
  match Json.member? "encryption".toList members with
  | none | some .null => none
  | some encryption => some encryption

/-- `read_container_payload`. A header that is no `dict` has no `get`. -/
def readContainerPayload (p : Primitives Key) (data : Bytes) (passphrase : Option (List Char)) :
    Except ReadError Bytes := do
  let header ← readContainerHeader data
  match header with
  | .dict members =>
    match encryptionOf members with
    | none => .ok (payloadOf data)
    | some encryption => readEncrypted p (payloadOf data) encryption passphrase
  | _ => .error .other

/-! ## Properties -/

/-- The ideal primitives, where `isSealed` is what has been encrypted: the cost factors of the code
give a key to every passphrase, and different keys to different ones; a ciphertext opens under its key and
nonce; and nothing else opens. -/
structure Primitives.Ideal (p : Primitives Key) (isSealed : Key → (nonce data : Bytes) → Prop) : Prop where
  derives : ∀ secret salt, salt.length = ARGON2_SALT_BYTES →
    ∃ key, p.hashSecretRaw secret salt (.int ARGON2_TIME_COST) (.int ARGON2_MEMORY_COST_KIB)
      (.int ARGON2_PARALLELISM) = some key
  separates : ∀ secret secret' salt key,
    p.hashSecretRaw secret salt (.int ARGON2_TIME_COST) (.int ARGON2_MEMORY_COST_KIB)
      (.int ARGON2_PARALLELISM) = some key →
    p.hashSecretRaw secret' salt (.int ARGON2_TIME_COST) (.int ARGON2_MEMORY_COST_KIB)
      (.int ARGON2_PARALLELISM) = some key → secret = secret'
  opens : ∀ key nonce data, isSealed key nonce data →
    p.decrypt key nonce (p.encrypt key nonce data) = some data
  genuine : ∀ key nonce ciphertext data, p.decrypt key nonce ciphertext = some data →
    isSealed key nonce data ∧ ciphertext = p.encrypt key nonce data

/-- What writing one container encrypts. -/
def SealedBy (p : Primitives Key) (r : Randomness) (zipBytes : Bytes) (passphrase : Option (List Char))
    (key : Key) (nonce data : Bytes) : Prop :=
  (∃ secret, passphrase = some secret ∧ deriveKey p secret r.salt = some key) ∧
    nonce = r.nonce ∧ data = zipBytes

/-- What writing a container and reading it back takes: the cost factors of the code give a key to the
passphrase, and the ciphertext opens under it. -/
def Primitives.Opens (p : Primitives Key) (r : Randomness) (zipBytes : Bytes) (passphrase : Option (List Char)) :
    Prop :=
  ∀ secret, passphrase = some secret → ∃ key, deriveKey p secret r.salt = some key ∧
    p.decrypt key r.nonce (p.encrypt key r.nonce zipBytes) = some zipBytes

/-- Reading the bytes gives the payload or raises. -/
def ReadsOnly (p : Primitives Key) (zipBytes : Bytes) (passphrase : List Char) (data : Bytes) : Prop :=
  ∀ plain, readContainerPayload p data (some passphrase) = .ok plain → plain = zipBytes

/-- The header of the bytes says that they are not encrypted, and another payload follows it. -/
def Stripped (zipBytes data : Bytes) : Prop :=
  ∃ members, readContainerHeader data = .ok (.dict members) ∧ encryptionOf members = none ∧
    payloadOf data ≠ zipBytes

end Exports
