import MongoWire.Messages.BodySpec

/-!
# Wrapping a body in `OP_COMPRESSED`

A wrapped body comes out again, and only under the size it was wrapped with. The
compressors are those of a build, under the law that each of them undoes itself.
-/

open MongoWire.Lib MongoWire.Lib.Outcome MongoWire.Io

namespace MongoWire

/-! ## What is assumed of a compressor -/

/-- Decompressing what was compressed gives it back, or a proper beginning of it where the limit
cuts it off. -/
structure Compressor.Lossless (c : Compressor) : Prop where
  whole : ∀ data z n, c.compress data = .ok z → data.length ≤ n + 1 →
    c.decompress z (n + 1) = .ok data
  cut : ∀ data z n, c.compress data = .ok z → n + 1 < data.length →
    c.decompress z (n + 1) = .ok (data.take (n + 1)) ∨ ∃ e, c.decompress z (n + 1) = .error e

/-- The length that the caller expects decides whether its check passes. -/
structure Codec.Binding (c : Codec) : Prop where
  same : ∀ data z, c.compress data = .ok z → c.decompress z data.length = .ok data
  other : ∀ data z n out, c.compress data = .ok z → n ≠ data.length → c.decompress z n = .ok out →
    out.length ≠ n

theorem Compressor.Lossless.binding {c : Compressor} (h : c.Lossless) : c.codec.Binding where
  same data z hz := h.whole data z data.length hz (by omega)
  other data z n out hz hn hout := by
    replace hout : c.decompress z (n + 1) = .ok out := hout
    by_cases hle : data.length ≤ n + 1
    · rw [h.whole data z n hz hle] at hout
      cases hout
      omega
    · rcases h.cut data z n hz (by omega) with hcut | ⟨e, he⟩
      · rw [hcut] at hout
        cases hout
        -- The extra byte of the limit is what gives the longer body away.
        rw [List.length_take_of_le (by omega)]
        omega
      · rw [he] at hout
        cases hout

namespace Build

theorem binding_noop (build : Build) : ∀ c ∈ build.codec .noop, c.Binding := by
  rintro c ⟨⟩
  constructor
  · rintro data z ⟨⟩
    rfl
  · rintro data z n out ⟨⟩ hn ⟨⟩
    exact fun heq => hn heq.symm

section Features

variable {snappy zlib zstd : Option Compressor} (hsnappy : ∀ c ∈ snappy, c.Lossless)
  (hzlib : ∀ c ∈ zlib, c.Lossless) (hzstd : ∀ c ∈ zstd, c.Lossless)

include hsnappy hzlib hzstd

theorem binding_ofFeatures (id : CompressorId) :
    ∀ c ∈ (ofFeatures snappy zlib zstd).codec id, c.Binding := by
  have hmap (o : Option Compressor) (ho : ∀ c ∈ o, c.Lossless) :
      ∀ c ∈ o.map Compressor.codec, c.Binding := by
    intro c hc
    obtain ⟨c, hmem, rfl⟩ := Option.mem_map.mp hc
    exact (ho c hmem).binding
  cases id with
  | noop => exact binding_noop _
  | snappy => exact hmap snappy hsnappy
  | zlib => exact hmap zlib hzlib
  | zstd => exact hmap zstd hzstd

end Features

theorem ofExcept_eq_ok (x : Except String Bytes) (b : Bytes) : ofExcept x = .ok b ↔ x = .ok b := by
  cases x <;> simp [ofExcept]

section Codec

variable {build : Build} {id : CompressorId} (hcodec : ∀ c ∈ build.codec id, c.Binding)
  {data z : Bytes} (hz : build.compress id data = .ok z)

include hcodec hz

theorem decompress_compress : build.decompress id z data.length = .ok data := by
  simp only [compress, bind_eq_ok, ofOption_eq_ok, ofExcept_eq_ok] at hz
  obtain ⟨c, hc, hz⟩ := hz
  have hsame := (hcodec c hc).same data z hz
  simp [decompress, hc, hsame, ofExcept]

theorem decompress_other (n : Nat) (hn : n ≠ data.length) : ∃ e, build.decompress id z n = .err e := by
  simp only [compress, bind_eq_ok, ofOption_eq_ok, ofExcept_eq_ok] at hz
  obtain ⟨c, hc, hz⟩ := hz
  rw [decompress, hc, ofOption_some, ok_bind]
  cases hout : c.decompress z n with
  | error e => exact ⟨_, rfl⟩
  | ok out =>
    have hother := (hcodec c hc).other data z n out hz hn hout
    exact ⟨_, if_pos hother⟩

end Codec

end Build

/-! ## Wrapping and unwrapping -/

namespace OpCompressed

variable {build : Build} {op : Opcode} {body : Bytes} {id : CompressorId} {c : OpCompressed}

theorem wrap_eq_ok :
    wrap build op body id = .ok c ↔
      body.length < 2 ^ 31 ∧ ∃ z, build.compress id body = .ok z ∧
        c = ⟨op, .ofNat body.length, id, z⟩ := by
  simp only [wrap, bind_eq_ok, ofOption_eq_ok, i32TryFrom_eq_some, pure_eq, ok.injEq]
  constructor
  · rintro ⟨_, ⟨hlt, rfl⟩, z, hz, rfl⟩
    exact ⟨hlt, z, hz, rfl⟩
  · rintro ⟨hlt, z, hz, rfl⟩
    exact ⟨_, ⟨hlt, rfl⟩, z, hz, rfl⟩

theorem parseBody_encodeBody (hsize : 0 ≤ c.uncompressedSize.toInt) :
    parseBody (c.encodeBody []) = .ok c := by
  rw [c.encodeBody_eq, List.nil_append]
  exact (parseBody_eq_ok _ c).mpr ⟨hsize, rfl⟩

theorem unwrapBody_of_size {maxMsgLen : Int32} (hop : c.originalOpcode ≠ .compressed)
    {n : Nat} (hn : c.uncompressedSize.toInt = n) (hmax : (n : Int) ≤ maxMsgLen.toInt) :
    c.unwrapBody build maxMsgLen =
      build.decompress c.compressorId c.compressedMessage n >>=
        MessageBody.parseBody c.originalOpcode := by
  rw [unwrapBody, if_neg (by omega), if_neg hop, if_neg (by omega), i32AsUsize_of_toInt hn]

theorem unwrapBody_err (maxMsgLen : Int32)
    (hother : ∀ n : Nat, c.uncompressedSize.toInt = n →
      ∃ e, build.decompress c.compressorId c.compressedMessage n = .err e) :
    ∃ e, c.unwrapBody build maxMsgLen = .err e := by
  by_cases hneg : c.uncompressedSize.toInt < 0
  · exact ⟨_, if_pos hneg⟩
  by_cases hop : c.originalOpcode = .compressed
  · exact ⟨_, by rw [unwrapBody, if_neg hneg, if_pos hop]⟩
  by_cases hmax : maxMsgLen.toInt < c.uncompressedSize.toInt
  · exact ⟨_, by rw [unwrapBody, if_neg hneg, if_neg hop, if_pos hmax]⟩
  obtain ⟨n, hn⟩ : ∃ n : Nat, c.uncompressedSize.toInt = n :=
    ⟨c.uncompressedSize.toInt.toNat, by omega⟩
  obtain ⟨e, he⟩ := hother n hn
  exact ⟨e, by rw [unwrapBody_of_size hop hn (by omega), he]; rfl⟩

/-- **Compression is transparent and its size is binding.** A body that reads back on its own reads
back through `OP_COMPRESSED`, and under no other size. -/
theorem wrap_transparent (snappy zlib zstd : Option Compressor)
    (hsnappy : ∀ c ∈ snappy, c.Lossless) (hzlib : ∀ c ∈ zlib, c.Lossless)
    (hzstd : ∀ c ∈ zstd, c.Lossless) (m : MessageBody) (hm : m.opcode ≠ .compressed)
    (hround : MessageBody.parseBody m.opcode (m.encodeBody []) = .ok m) (id : CompressorId)
    (maxMsgLen : Int32) (hmax : ((m.encodeBody []).length : Int) ≤ maxMsgLen.toInt)
    (c : OpCompressed)
    (hwrap : wrap (.ofFeatures snappy zlib zstd) m.opcode (m.encodeBody []) id = .ok c) :
    parseBody (c.encodeBody []) = .ok c ∧
      c.unwrapBody (.ofFeatures snappy zlib zstd) maxMsgLen = .ok m ∧
      ∀ size, size ≠ c.uncompressedSize →
        ∃ e, { c with uncompressedSize := size }.unwrapBody
          (.ofFeatures snappy zlib zstd) maxMsgLen = .err e := by
  obtain ⟨hlt, z, hz, rfl⟩ := wrap_eq_ok.mp hwrap
  have hcodec := Build.binding_ofFeatures hsnappy hzlib hzstd id
  have hsize : (Int32.ofNat (m.encodeBody []).length).toInt = (m.encodeBody []).length :=
    toInt_ofNat _ hlt
  refine ⟨parseBody_encodeBody (by rw [hsize]; omega), ?_, ?_⟩
  · rw [unwrapBody_of_size hm hsize hmax, Build.decompress_compress hcodec hz]
    exact hround
  · intro size hne
    refine unwrapBody_err maxMsgLen fun n hn => Build.decompress_other hcodec hz n ?_
    rintro rfl
    exact hne (Int32.toInt_inj.mp (hn.trans hsize.symm))

/-- The checksum of a snappy chunk. -/
def maskedCrc (data : Bytes) : UInt32 :=
  (crc32c data >>> 15 ||| crc32c data <<< 17) + 0xa282ead8

/-- The snappy frame format with one chunk that is stored as it is: the stream identifier, the kind
and length of the chunk, its checksum, and the data. -/
def storedFrame (data : Bytes) : Bytes :=
  [0xff, 6, 0, 0, 0x73, 0x4e, 0x61, 0x50, 0x70, 0x59, 1] ++
    (leBytes 3 (data.length + 4) ++ (u32ToLe (maskedCrc data) ++ data))

/-- Snappy on data that is too short to hold a copy, which it stores. -/
def storing : Compressor where
  compress data := .ok (storedFrame data)
  decompress z limit :=
    if z = storedFrame (z.drop 18) then .ok ((z.drop 18).take limit)
    else .error "snappy: corrupt input"

theorem drop_storedFrame (data : Bytes) : (storedFrame data).drop 18 = data := by
  simp [storedFrame, List.drop_append]

theorem storing_lossless : storing.Lossless where
  whole := by
    rintro data z n ⟨⟩ hle
    simp only [storing, drop_storedFrame, if_true, List.take_of_length_le hle]
  cut := by
    rintro data z n ⟨⟩ -
    left
    simp only [storing, drop_storedFrame, if_true]

theorem wrap_transparent_stored :
    unwrapBody (.ofFeatures (some storing) none none)
        ⟨.msg, 10, .snappy, [0xff, 6, 0, 0, 0x73, 0x4e, 0x61, 0x50, 0x70, 0x59, 1, 14, 0, 0,
          234, 97, 113, 229, 0, 0, 0, 0, 0, 5, 0, 0, 0, 0]⟩ 10 =
      .ok (.msg ⟨⟨0⟩, ⟨OpMsg.emptyDocument, []⟩, none⟩) :=
  -- An empty `OP_MSG` in a build with snappy.
  (wrap_transparent (some storing) none none (by simpa using storing_lossless) (by simp) (by simp)
    (.msg ⟨⟨0⟩, ⟨OpMsg.emptyDocument, []⟩, none⟩) (by decide) (by decide) .snappy 10
    (by decide) _ (by decide +kernel)).2.1

end OpCompressed

end MongoWire
