import ToyDfs.OwnFiles

/-!
The coordinator writes chunk numbers, the datanode reads them back.

`PutFile` takes them from a 64-bit counter; `get_chunk_path` reads them with
`std::stoi`, into an `int`.  The two agree below `2^31` (`readBack_iff_fitsInt`).
From there on `std::stoi` throws (`not_readBack`), so no datanode takes the chunk
(`stubPutChunk_tooLarge`).
-/

namespace ToyDfs

/-! ## Statement -/

/-- The datanode finds a file for the id of chunk `n`, and the file tells `n`. -/
structure ReadBack (config : DataNodeConfig) (n : UInt64) (path : String) : Prop where
  found : getChunkPath (chunkName n.toNat) config = .ok path
  below : Below config.basePath path
  recovered : fileNumber path = n.toNat
  own : ∀ m : UInt64, getChunkPath (chunkName m.toNat) config = .ok path → m = n

/-! ## Lemmas -/

/-- A datanode answers a chunk number from `2^31` on with an error, and stores
nothing. -/
theorem stubPutChunk_tooLarge (config : DataNodeConfig) (fault : PutFault) {n : Nat}
    (hn : 2 ^ 31 ≤ n) (data : Bytes) (disk : Disk) :
    (stubPutChunk config fault (chunkName n) data disk).1.isOk = false ∧
      (stubPutChunk config fault (chunkName n) data disk).2 = disk := by
  have hthrows : getChunkPath (chunkName n) config = .error .outOfRange := by
    rw [getChunkPath_chunkName, if_neg (Nat.not_lt.mpr hn)]
  constructor
  · rw [stubPutChunk_isOk, PutFault.answersOk, hthrows]
    rfl
  · rw [stubPutChunk_disk, hthrows]

/-! ## Top theorem -/

/-- **The chunk numbers an `int` holds are the ones read back.** -/
theorem readBack_iff_fitsInt (config : DataNodeConfig) (n : UInt64) :
    (∃ path, ReadBack config n path) ↔ n.toNat < 2 ^ 31 := by
  constructor
  · rintro ⟨path, h⟩
    by_contra hn
    have hfound := h.found
    rw [getChunkPath_chunkName, if_neg hn] at hfound
    cases hfound
  · intro hn
    have hfound : getChunkPath (chunkName n.toNat) config = .ok (chunkFile config.basePath n.toNat) := by
      rw [getChunkPath_chunkName, if_pos hn]
    refine ⟨chunkFile config.basePath n.toNat, hfound, ?_, ?_, ?_⟩
    · exact below_chunkFile config.basePath n.toNat
    · exact fileNumber_chunkFile config.basePath n.toNat
    · intro m hm
      exact UInt64.toNat.inj (getChunkPath_inj hm hfound)

/-- Number `2^31` is the first that is not. -/
theorem not_readBack : ¬ ∀ (config : DataNodeConfig) (n : UInt64), ∃ path, ReadBack config n path := by
  intro h
  obtain ⟨path, hpath⟩ := h {} 2147483648
  have hfound := hpath.found
  rw [getChunkPath_chunkName, if_neg (by decide)] at hfound
  cases hfound

end ToyDfs
