import ClassAtlas.Archive.Zip
import ClassAtlas.Proofs.Success

/-! What reading an archive gives when it succeeds: an entry with deflated data is read by inflating the
bytes at its place (`read_deflated`), and the entries of an archive are those its directory lists
(`entries_eq`). -/
namespace ClassAtlas.Archive.Zip

variable {source : Source} {image : Image} {h : Header} {stop : Nat} {bytes record data content : Bytes}

/-- An entry with deflated data, whose local record is `record`. -/
theorem read_deflated {place : Nat} (hoffset : 0 ≤ h.offset) (hmethod : h.method = 8)
    (hrecord : slice? image h.offset.toNat 30 = some record) (hsignature : field record 0 4 = 0x04034B50)
    (hplace : h.offset.toNat + 30 + field record 26 2 + field record 28 2 = place)
    (hstop : place + (signed h.compressed).toNat = stop)
    (hdata : Inflate.inflate h.size (image.extract place stop) = .ok data)
    (hchecked : checked image h stop data = .ok content) : read source image h = .ok content := by
  subst hplace hstop
  simp only [read, check_eq_ok, hrecord, hmethod, hdata]
  exact ⟨by omega, not_not.2 hsignature, hchecked⟩

/-- The entries that a directory lists, read to its end and with as many headers as it should have. -/
theorem entries_eq {e : Ending} {base : Int} {hs : List Header} {fault : Fault}
    (he : ending bytes.toArray = .ok e) (hbase : start bytes.toArray e = .ok base)
    (hhs : headers bytes.toArray (bytes.length + 1) (base + e.offset).toNat = (hs, fault))
    (hfault : fault ≠ .ended) (hcount : hs.length % 65536 = e.records % 65536) :
    entries source bytes = .ok (hs.map fun h =>
      let h := { h with offset := signed ((h.offset + base) % 18446744073709551616).toNat }
      ⟨⟨h.name⟩, h.isDirectory, h.size, fun _ => read source bytes.toArray h⟩) := by
  unfold entries
  refine bind_eq_ok.2 ⟨e, he, bind_eq_ok.2 ⟨base, hbase, ?_⟩⟩
  rw [List.size_toArray, hhs]
  exact check_eq_ok.2 ⟨by simp [hfault, hcount], rfl⟩

end ClassAtlas.Archive.Zip
