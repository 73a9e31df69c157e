import LedgerQuery.Json.Reader
import LedgerQuery.Proofs.Json.Normal

namespace LedgerQuery

namespace Json

theorem keyed_insert {x : Json} {ms : List (String × Json)} (hms : (Json.object ms).Keyed) (hx : x.Keyed)
    (key : String) : (Json.object (insert key x ms)).Keyed := by
  obtain ⟨distinct, hmembers⟩ := keyed_object.mp hms
  refine keyed_object.mpr ⟨?_, fun m hm => ?_⟩
  · rw [map_fst_insert]
    split
    · exact distinct
    · rename_i hkey
      rw [List.nodup_append]
      refine ⟨distinct, List.nodup_singleton _, ?_⟩
      rintro a ha b hb rfl
      rw [List.mem_singleton.mp hb] at ha
      exact hkey ha
  · obtain rfl | hm := mem_insert hm
    · exact hx
    · exact hmembers m hm

namespace Reader

theorem literal_keyed {cs rest : List Char} {v : Json} (h : literal cs = some (v, rest)) : v.Keyed := by
  obtain ⟨⟨w, x⟩, hmem, hx⟩ := List.exists_of_findSome?_eq_some h
  obtain ⟨_, -, heq⟩ := Option.map_eq_some_iff.mp hx
  cases heq
  simp only [literals, List.mem_cons, List.not_mem_nil, or_false, Prod.mk.injEq] at hmem
  obtain ⟨-, rfl⟩ | ⟨-, rfl⟩ | ⟨-, rfl⟩ | ⟨-, rfl⟩ | ⟨-, rfl⟩ := hmem <;> simp

theorem keyed_of_read (n : Nat) :
    (∀ cs v rest, value n cs = some (v, rest) → v.Keyed) ∧
    (∀ acc cs xs rest, elements n acc cs = some (xs, rest) → (∀ x ∈ acc, x.Keyed) → ∀ x ∈ xs, x.Keyed) ∧
    (∀ acc cs ms rest, members n acc cs = some (ms, rest) →
      (Json.object acc).Keyed → (Json.object ms).Keyed) := by
  induction n with
  | zero => exact ⟨nofun, nofun, nofun⟩
  | succ n ih =>
      obtain ⟨ihvalue, ihelements, ihmembers⟩ := ih
      refine ⟨fun cs v rest h => ?_, fun acc cs xs rest h hacc => ?_, fun acc cs ms rest h hacc => ?_⟩
      · rw [value] at h
        split at h
        · obtain ⟨_, -, heq⟩ := Option.map_eq_some_iff.mp h
          cases heq
          simp
        · split at h
          · cases h
            simp
          · obtain ⟨⟨xs, _⟩, hxs, heq⟩ := Option.map_eq_some_iff.mp h
            cases heq
            exact keyed_array.mpr (ihelements _ _ _ _ hxs (List.forall_mem_nil _))
        · split at h
          · cases h
            simp
          · obtain ⟨⟨ms, _⟩, hms, heq⟩ := Option.map_eq_some_iff.mp h
            cases heq
            exact ihmembers _ _ _ _ hms (by simp)
        · split at h
          · cases h
            exact literal_keyed (by assumption)
          · obtain ⟨_, -, heq⟩ := Option.map_eq_some_iff.mp h
            cases heq
            simp
      · rw [elements] at h
        split at h
        · cases h
        · rename_i x rest' hx
          have hx := ihvalue _ _ _ hx
          have hacc := List.forall_mem_cons.mpr ⟨hx, hacc⟩
          split at h
          · exact ihelements _ _ _ _ h hacc
          · cases h
            exact fun y hy => hacc y (List.mem_reverse.mp hy)
          · cases h
      · rw [members] at h
        split at h
        · cases h
        · split at h
          · split at h
            · cases h
            · rename_i x rest'' hx
              have hacc' := keyed_insert hacc (ihvalue _ _ _ hx)
              split at h
              · exact ihmembers _ _ _ _ h (hacc' _)
              · cases h
                exact hacc' _
              · cases h
          · cases h

end Reader

theorem read?_keyed {text : String} {j : Json} (h : read? text = some j) : j.Keyed := by
  simp only [read?] at h
  split at h
  · rename_i v rest hv
    split at h
    · cases h
      exact (Reader.keyed_of_read _).1 _ _ _ hv
    · cases h
  · cases h

end Json

end LedgerQuery
