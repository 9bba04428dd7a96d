import Mathlib.Data.List.Nodup

/-!
# Lists with unique keys

The entry that a scan for a key finds is the entry of that key (`find?_key`).
-/

namespace Lib

theorem find?_key {α κ : Type*} [BEq κ] [LawfulBEq κ] {key : α → κ} {l : List α} (hnd : (l.map key).Nodup) {k : κ}
    {x : α} : l.find? (fun y => key y == k) = some x ↔ x ∈ l ∧ key x = k := by
  constructor
  · intro h
    exact ⟨List.mem_of_find?_eq_some h, by simpa using List.find?_some h⟩
  · rintro ⟨hx, rfl⟩
    have hfound : (l.find? fun y => key y == key x).isSome := List.find?_isSome.mpr ⟨x, hx, BEq.rfl⟩
    obtain ⟨y, hy⟩ := Option.isSome_iff_exists.mp hfound
    have he : key y = key x := by simpa using List.find?_some hy
    rw [hy, List.inj_on_of_nodup_map hnd (List.mem_of_find?_eq_some hy) hx he]

end Lib
