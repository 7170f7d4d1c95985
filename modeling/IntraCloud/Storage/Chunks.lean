import IntraCloud.Storage.Services

/-!
# Reading an upload chunk by chunk

The loop of `_hash_and_sniff` over what the reads return. The hash object is an argument.
-/

namespace Storage

open Python

variable {σ : Type}

/-- `hashlib.sha256()` and its methods. -/
structure Hasher (σ : Type) where
  start : σ
  update : σ → Bytes → σ
  hexdigest : σ → List Char

/-- `hashlib.sha256(data).hexdigest()`. -/
def Hasher.sha256 (hasher : Hasher σ) (data : Bytes) : List Char :=
  hasher.hexdigest (hasher.update hasher.start data)

/-- Updates one after another are one update with all the bytes. -/
structure Hasher.Incremental (hasher : Hasher σ) : Prop where
  nil : ∀ s, hasher.update s [] = s
  append : ∀ s a b, hasher.update (hasher.update s a) b = hasher.update s (a ++ b)

/-- The loop over the chunks, none of which is empty; `none` for `UploadTooLarge`. -/
def hashLoop (hasher : Hasher σ) (maxUploadSizeBytes : Nat) (head : Bytes) (state : σ) (size : Nat) :
    List Bytes → Option (List Char × Nat × String)
  | [] => some (hasher.hexdigest state, size, sniffMimeType head)
  | chunk :: chunks =>
    let head := if head.isEmpty then chunk.take 4096 else head
    let state := hasher.update state chunk
    let size := size + chunk.length
    if maxUploadSizeBytes < size then none else hashLoop hasher maxUploadSizeBytes head state size chunks

/-- `_hash_and_sniff`, by the chunks that the reads return. -/
def hashAndSniffChunks (hasher : Hasher σ) (maxUploadSizeBytes : Nat) (chunks : List Bytes) :
    Option (List Char × Nat × String) :=
  hashLoop hasher maxUploadSizeBytes [] hasher.start 0 chunks

/-- What the type is sniffed from. -/
def headOf (chunks : List Bytes) : Bytes := (chunks.headD []).take 4096

/-- The content starts with no magic signature. -/
def Unsigned (content : Bytes) : Prop := ∀ s ∈ magicSignatures, ¬ s.1 <+: content

/-- The result is the hash and the length of the content, with the type of the signature that it starts with, or
of the text that it is. -/
def SniffsContent (hasher : Hasher σ) (maxUploadSizeBytes : Nat) (chunks : List Bytes) : Prop :=
  ∃ mimeType,
    hashAndSniffChunks hasher maxUploadSizeBytes chunks =
      some (hasher.sha256 chunks.flatten, chunks.flatten.length, mimeType) ∧
    (∀ s ∈ magicSignatures, s.1 <+: chunks.flatten → mimeType = s.2) ∧
    (Unsigned chunks.flatten → (decodeUtf8 chunks.flatten).isSome = true → mimeType = "text/plain")

/-- The head is long enough for the signature of the content, and does not end within a character of a text. -/
def HeadFits (chunks : List Bytes) : Prop :=
  (∀ s ∈ magicSignatures, s.1 <+: chunks.flatten → s.1.length ≤ (headOf chunks).length) ∧
    (Unsigned chunks.flatten → (decodeUtf8 chunks.flatten).isSome = true →
      OnBoundary (headOf chunks).length chunks.flatten)

end Storage
