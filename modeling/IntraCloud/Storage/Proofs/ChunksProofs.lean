import IntraCloud.Python.Proofs.CutsProofs
import IntraCloud.Storage.Chunks

/-!
# Reading an upload chunk by chunk

The hash and the size are those of the content however it is split. The type is that of the first chunk.
-/

namespace Storage

open Python

variable {σ : Type} {hasher : Hasher σ} {chunks chunks' : List Bytes} {content : Bytes} {limit : Nat}

/-! ## The loop -/

/-- What the rest of the loop returns, once there is a head. -/
theorem hashLoop_eq (hhasher : hasher.Incremental) {head : Bytes} (hhead : head ≠ []) (state : σ) {size : Nat}
    (hsize : size ≤ limit) (chunks : List Bytes) :
    hashLoop hasher limit head state size chunks =
      if limit < size + chunks.flatten.length then none
      else some (hasher.hexdigest (hasher.update state chunks.flatten), size + chunks.flatten.length,
        sniffMimeType head) := by
  induction chunks generalizing state size with
  | nil =>
    rw [hashLoop, List.flatten_nil, List.length_nil, Nat.add_zero, if_neg (Nat.not_lt.mpr hsize), hhasher.nil]
  | cons chunk chunks ih =>
    have hkept : (if head.isEmpty then chunk.take 4096 else head) = head := by
      rw [if_neg (by simpa using hhead)]
    rw [hashLoop, hkept, List.flatten_cons, List.length_append, ← Nat.add_assoc]
    by_cases hlarge : limit < size + chunk.length
    · rw [if_pos hlarge, if_pos (by omega)]
    · rw [if_neg hlarge, ih (hasher.update state chunk) (Nat.le_of_not_lt hlarge), hhasher.append]

/-- The hash and the size do not depend on the chunks, and the type only on the first. -/
theorem hashAndSniffChunks_eq (hhasher : hasher.Incremental) (hchunks : [] ∉ chunks) :
    hashAndSniffChunks hasher limit chunks =
      if limit < chunks.flatten.length then none
      else some (hasher.sha256 chunks.flatten, chunks.flatten.length, sniffMimeType (headOf chunks)) := by
  unfold hashAndSniffChunks
  cases chunks with
  | nil =>
    rw [hashLoop, List.flatten_nil, List.length_nil, if_neg (Nat.not_lt_zero limit), Hasher.sha256, hhasher.nil]
    rfl
  | cons chunk chunks =>
    have hne : chunk ≠ [] := fun heq => hchunks (heq ▸ List.mem_cons_self ..)
    have hhead : chunk.take 4096 ≠ [] := by
      rw [Ne, List.take_eq_nil_iff]
      rintro (hzero | hnil)
      · cases hzero
      · exact hne hnil
    rw [hashLoop, List.isEmpty_nil, if_pos rfl, Nat.zero_add, List.flatten_cons, List.length_append]
    by_cases hlarge : limit < chunk.length
    · rw [if_pos hlarge, if_pos (by omega)]
    · rw [if_neg hlarge, hashLoop_eq hhasher hhead _ (Nat.le_of_not_lt hlarge), hhasher.append]
      rfl

/-- Where the first chunk holds what is sniffed, this is the upload that is read as a whole. -/
theorem hashAndSniffChunks_whole (hhasher : hasher.Incremental) (hchunks : [] ∉ chunks) {cfg : Config}
    (hcfg : cfg.sha256 = hasher.sha256) (hhead : headOf chunks = chunks.flatten.take 4096) :
    hashAndSniffChunks hasher cfg.maxUploadSizeBytes chunks = hashAndSniff cfg chunks.flatten := by
  rw [hashAndSniffChunks_eq hhasher hchunks, hashAndSniff, hhead, hcfg]

/-! ## Sniffing -/

theorem headOf_initial (chunks : List Bytes) : headOf chunks <+: chunks.flatten := by
  cases chunks with
  | nil => exact List.nil_prefix
  | cons chunk chunks => exact (List.take_prefix 4096 chunk).trans (List.prefix_append chunk chunks.flatten)

theorem signature_eq : ∀ s ∈ magicSignatures, ∀ s' ∈ magicSignatures, s.1 <+: s'.1 → s = s' := by decide

/-- A content has one signature at most. -/
theorem signature_unique {s s' : Bytes × String} (hs : s ∈ magicSignatures) (hs' : s' ∈ magicSignatures)
    (hstart : s.1 <+: content) (hstart' : s'.1 <+: content) : s = s' := by
  rcases Nat.le_total s.1.length s'.1.length with hle | hle
  · exact signature_eq s hs s' hs' (List.prefix_of_prefix_length_le hstart hstart' hle)
  · exact (signature_eq s' hs' s hs (List.prefix_of_prefix_length_le hstart' hstart hle)).symm

theorem sniffMimeType_signed {s : Bytes × String} (hs : s ∈ magicSignatures) (hstart : s.1 <+: content) :
    sniffMimeType content = s.2 := by
  unfold sniffMimeType
  cases hfind : magicSignatures.find? fun s => s.1.isPrefixOf content with
  | none => exact absurd (List.isPrefixOf_iff_prefix.mpr hstart) (List.find?_eq_none.mp hfind s hs)
  | some s' =>
    have hfound := List.find?_some hfind
    have hmem := List.mem_of_find?_eq_some hfind
    rw [signature_unique hs hmem hstart (List.isPrefixOf_iff_prefix.mp hfound)]

theorem sniffMimeType_unsigned (h : Unsigned content) :
    sniffMimeType content =
      if (decodeUtf8 content).isSome then "text/plain" else "application/octet-stream" := by
  unfold sniffMimeType
  have hnone : (magicSignatures.find? fun s => s.1.isPrefixOf content) = none :=
    List.find?_eq_none.mpr fun s hs hstart => h s hs (List.isPrefixOf_iff_prefix.mp hstart)
  rw [hnone]

theorem signature_types : ∀ s ∈ magicSignatures, s.2 ≠ "text/plain" ∧ s.2 ≠ "application/octet-stream" := by
  decide

/-- The type of a signature is sniffed only from that signature. -/
theorem signed_of_sniffMimeType {s : Bytes × String} {head : Bytes} (hs : s ∈ magicSignatures)
    (hstart : s.1 <+: content) (hhead : head <+: content) (hsniff : sniffMimeType head = s.2) : s.1 <+: head := by
  by_cases hsigned : ∃ s' ∈ magicSignatures, s'.1 <+: head
  · obtain ⟨s', hs', hstart'⟩ := hsigned
    rw [signature_unique hs hs' hstart (hstart'.trans hhead)]
    exact hstart'
  · have hunsigned : Unsigned head := fun s' hs' hstart' => hsigned ⟨s', hs', hstart'⟩
    obtain ⟨hplain, hbinary⟩ := signature_types s hs
    rw [sniffMimeType_unsigned hunsigned] at hsniff
    split_ifs at hsniff
    · exact absurd hsniff.symm hplain
    · exact absurd hsniff.symm hbinary

theorem decodeUtf8_headOf (hvalid : (decodeUtf8 chunks.flatten).isSome = true) :
    (decodeUtf8 (headOf chunks)).isSome = true ↔ OnBoundary (headOf chunks).length chunks.flatten := by
  obtain ⟨text, htext⟩ := Option.isSome_iff_exists.mp hvalid
  rw [← decodeUtf8_take htext, ← List.prefix_iff_eq_take.mp (headOf_initial chunks)]

theorem Unsigned.headOf (h : Unsigned chunks.flatten) : Unsigned (headOf chunks) :=
  fun s hs hstart => h s hs (hstart.trans (headOf_initial chunks))

theorem hashAndSniffChunks_of_le (hhasher : hasher.Incremental) (hchunks : [] ∉ chunks)
    (hlimit : chunks.flatten.length ≤ limit) :
    hashAndSniffChunks hasher limit chunks =
      some (hasher.sha256 chunks.flatten, chunks.flatten.length, sniffMimeType (headOf chunks)) := by
  rw [hashAndSniffChunks_eq hhasher hchunks, if_neg (Nat.not_lt.mpr hlimit)]

/-- The type is right exactly where the head fits. -/
theorem sniffsContent_iff (hhasher : hasher.Incremental) (hchunks : [] ∉ chunks)
    (hlimit : chunks.flatten.length ≤ limit) : SniffsContent hasher limit chunks ↔ HeadFits chunks := by
  unfold SniffsContent HeadFits
  rw [hashAndSniffChunks_of_le hhasher hchunks hlimit]
  constructor
  · rintro ⟨mimeType, hmime, hsigned, hplain⟩
    obtain rfl := (Prod.mk.inj (Prod.mk.inj (Option.some.inj hmime)).2).2
    refine ⟨fun s hs hstart => ?_, fun hunsigned hvalid => ?_⟩
    · exact (signed_of_sniffMimeType hs hstart (headOf_initial chunks) (hsigned s hs hstart)).length_le
    · have hsniff := hplain hunsigned hvalid
      rw [sniffMimeType_unsigned hunsigned.headOf] at hsniff
      split_ifs at hsniff with hhead
      · exact (decodeUtf8_headOf hvalid).mp hhead
      · exact absurd hsniff (by decide)
  · rintro ⟨hlong, hboundary⟩
    refine ⟨_, rfl, fun s hs hstart => ?_, fun hunsigned hvalid => ?_⟩
    · refine sniffMimeType_signed hs ?_
      exact List.prefix_of_prefix_length_le hstart (headOf_initial chunks) (hlong s hs hstart)
    · rw [sniffMimeType_unsigned hunsigned.headOf,
        if_pos ((decodeUtf8_headOf hvalid).mpr (hboundary hunsigned hvalid))]

/-- Two splits of one content have the right result, and the same one, exactly where both heads fit, and where
the content has no signature and is no text, both heads are texts or neither is. -/
theorem sniffsAlike_iff (hasher : Hasher σ) (hhasher : hasher.Incremental) (maxUploadSizeBytes : Nat)
    (chunks chunks' : List Bytes) (hchunks : [] ∉ chunks) (hchunks' : [] ∉ chunks')
    (hsame : chunks.flatten = chunks'.flatten) (hlimit : chunks.flatten.length ≤ maxUploadSizeBytes) :
    (SniffsContent hasher maxUploadSizeBytes chunks ∧ SniffsContent hasher maxUploadSizeBytes chunks' ∧
        hashAndSniffChunks hasher maxUploadSizeBytes chunks =
          hashAndSniffChunks hasher maxUploadSizeBytes chunks') ↔
      (HeadFits chunks ∧ HeadFits chunks' ∧
        (Unsigned chunks.flatten → (decodeUtf8 chunks.flatten).isSome = false →
          (decodeUtf8 (headOf chunks)).isSome = (decodeUtf8 (headOf chunks')).isSome)) := by
  have hlimit' : chunks'.flatten.length ≤ maxUploadSizeBytes := hsame ▸ hlimit
  have hunsigned' : Unsigned chunks.flatten → Unsigned (headOf chunks') := fun h => (hsame ▸ h : Unsigned _).headOf
  rw [sniffsContent_iff hhasher hchunks hlimit, sniffsContent_iff hhasher hchunks' hlimit',
    hashAndSniffChunks_of_le hhasher hchunks hlimit, hashAndSniffChunks_of_le hhasher hchunks' hlimit']
  refine and_congr_right fun hfits => and_congr_right fun hfits' => ?_
  constructor
  · intro hresults hunsigned _
    have hsniff := (Prod.mk.inj (Prod.mk.inj (Option.some.inj hresults)).2).2
    rw [sniffMimeType_unsigned hunsigned.headOf, sniffMimeType_unsigned (hunsigned' hunsigned)] at hsniff
    by_cases hhead : (decodeUtf8 (headOf chunks)).isSome = true <;>
      by_cases hhead' : (decodeUtf8 (headOf chunks')).isSome = true
    · rw [hhead, hhead']
    · rw [if_pos hhead, if_neg hhead'] at hsniff
      exact absurd hsniff (by decide)
    · rw [if_neg hhead, if_pos hhead'] at hsniff
      exact absurd hsniff (by decide)
    · rw [Bool.eq_false_iff.mpr hhead, Bool.eq_false_iff.mpr hhead']
  · intro hheads
    have hsniff : sniffMimeType (headOf chunks) = sniffMimeType (headOf chunks') := by
      by_cases hsigned : ∃ s ∈ magicSignatures, s.1 <+: chunks.flatten
      · obtain ⟨s, hs, hstart⟩ := hsigned
        have hstart' : s.1 <+: chunks'.flatten := hsame ▸ hstart
        have hprefix := List.prefix_of_prefix_length_le hstart (headOf_initial chunks) (hfits.1 s hs hstart)
        have hprefix' := List.prefix_of_prefix_length_le hstart' (headOf_initial chunks') (hfits'.1 s hs hstart')
        rw [sniffMimeType_signed hs hprefix, sniffMimeType_signed hs hprefix']
      · have hunsigned : Unsigned chunks.flatten := fun s hs hstart => hsigned ⟨s, hs, hstart⟩
        rw [sniffMimeType_unsigned hunsigned.headOf, sniffMimeType_unsigned (hunsigned' hunsigned)]
        by_cases hvalid : (decodeUtf8 chunks.flatten).isSome = true
        · have hvalid' : (decodeUtf8 chunks'.flatten).isSome = true := hsame ▸ hvalid
          rw [if_pos ((decodeUtf8_headOf hvalid).mpr (hfits.2 hunsigned hvalid)),
            if_pos ((decodeUtf8_headOf hvalid').mpr (hfits'.2 (hsame ▸ hunsigned) hvalid'))]
        · rw [hheads hunsigned (Bool.eq_false_iff.mpr hvalid)]
    rw [hsniff, hsame]

/-! ## A text that is cut within a character -/

/-- A hash object that knows the word `hé`. -/
def wordHasher : Hasher Bytes where
  start := []
  update s data := s ++ data
  hexdigest s :=
    if s = utf8Encode "hé".toList then
      "7dfbe0eab96510b11c9a2671d83019cd52953211294db5f917ffa0b7cc84f534".toList
    else []

theorem incremental_wordHasher : wordHasher.Incremental :=
  ⟨fun s => List.append_nil s, fun s a b => List.append_assoc s a b⟩

theorem sniffsAlike_iff_word :
    (SniffsContent wordHasher 100 [[0x68], [0xC3, 0xA9]] ∧ SniffsContent wordHasher 100 [[0x68, 0xC3, 0xA9]] ∧
        hashAndSniffChunks wordHasher 100 [[0x68], [0xC3, 0xA9]] =
          hashAndSniffChunks wordHasher 100 [[0x68, 0xC3, 0xA9]]) ↔
      (HeadFits [[0x68], [0xC3, 0xA9]] ∧ HeadFits [[0x68, 0xC3, 0xA9]] ∧
        (Unsigned [0x68, 0xC3, 0xA9] → (decodeUtf8 [0x68, 0xC3, 0xA9]).isSome = false →
          (decodeUtf8 (headOf [[0x68], [0xC3, 0xA9]])).isSome =
            (decodeUtf8 (headOf [[0x68, 0xC3, 0xA9]])).isSome)) :=
  sniffsAlike_iff wordHasher incremental_wordHasher 100 _ _ (by decide) (by decide) rfl (by decide)

/-- A text of 4097 bytes, with an accent at its end. -/
def accentedText : Bytes := utf8Encode (List.replicate 4095 'a' ++ ['é'])

/-- The text is read as one chunk, and its head ends within the accent: it is no `text/plain`. -/
theorem not_sniffsContent_accented :
    (decodeUtf8 accentedText).isSome = true ∧ ¬ SniffsContent wordHasher 10000 [accentedText] := by
  have hvalid : (decodeUtf8 accentedText).isSome = true := by
    rw [accentedText, decodeUtf8_utf8Encode]
    rfl
  have hflatten : [accentedText].flatten = accentedText := List.append_nil accentedText
  have hlength : accentedText.length = 4097 := by
    rw [accentedText, utf8Encode_accented, List.length_append, List.length_replicate]
    rfl
  have hchunks : [] ∉ [accentedText] := by
    intro hmem
    have hnil := congrArg List.length (List.mem_singleton.mp hmem)
    rw [hlength] at hnil
    cases hnil
  have hunsigned : Unsigned [accentedText].flatten := by
    intro s hs hstart
    have hfirst : ∀ s ∈ magicSignatures, s.1.head? ≠ some 0x61 ∧ s.1 ≠ [] := by decide
    obtain ⟨hhead, hne⟩ := hfirst s hs
    obtain ⟨rest, hrest⟩ := hstart
    rw [hflatten, accentedText, utf8Encode_accented, List.replicate_succ] at hrest
    cases hsig : s.1 with
    | nil => exact hne hsig
    | cons b bytes =>
      rw [hsig, List.cons_append] at hrest
      rw [hsig, List.head?_cons] at hhead
      exact hhead (congrArg some (List.cons.inj hrest).1)
  refine ⟨hvalid, fun hsniffs => ?_⟩
  have hfits := (sniffsContent_iff incremental_wordHasher hchunks (by rw [hflatten, hlength]; decide)).mp hsniffs
  have hboundary := hfits.2 hunsigned (by rw [hflatten]; exact hvalid)
  have hhead : (headOf [accentedText]).length = 4096 := by
    rw [headOf, List.headD_cons, List.length_take, hlength]
    rfl
  rw [hhead, hflatten] at hboundary
  exact not_onBoundary_accented 4095 hboundary

end Storage
