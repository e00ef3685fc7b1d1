import Mathlib.Algebra.Ring.Nat
import Mathlib.Data.List.Induction
import ContentTypes.Proofs.OrderedMap.Entries

namespace ContentTypes

-- The ids in a row at those places where the id came before a number of times that counts.
def comings (counts : Nat → Bool) (ids : List String) : List String :=
  (ids.zipIdx.filter fun (id, place) => counts ((ids.take place).count id)).map Prod.fst

-- A last id comes as often as it is in the row before it.
theorem comings_concat (counts : Nat → Bool) (ids : List String) (last : String) :
    comings counts (ids ++ [last]) =
      comings counts ids ++ if counts (ids.count last) then [last] else [] := by
  have hearlier : ids.zipIdx.filter
      (fun entry => counts (((ids ++ [last]).take entry.2).count entry.1)) =
        ids.zipIdx.filter fun entry => counts ((ids.take entry.2).count entry.1) := by
    apply List.filter_congr
    intro entry he
    have hplace : entry.2 ≤ ids.length := Nat.le_of_lt (List.snd_lt_of_mem_zipIdx he)
    rw [List.take_append_of_le_length hplace]
  unfold comings
  rw [List.zipIdx_append, List.filter_append, List.map_append, hearlier]
  congr 1
  by_cases hc : counts (ids.count last) <;> simp [List.zipIdx_cons, hc]

theorem mem_comings (n : Nat) (ids : List String) (id : String) :
    id ∈ comings (· = n) ids ↔ n < ids.count id := by
  induction ids using List.reverseRecOn with
  | nil => simp [comings]
  | append_singleton ids last ih =>
      rw [comings_concat, List.mem_append, ih, List.count_append]
      by_cases hl : id = last
      · subst hl
        by_cases hn : ids.count id = n
        · simp [hn]
        · simp only [hn, decide_false, Bool.false_eq_true, if_false, List.not_mem_nil, or_false,
            List.count_singleton_self]
          omega
      · split <;> simp [hl, Ne.symm hl]

-- No id comes for the same time twice.
theorem nodup_comings (n : Nat) (ids : List String) : (comings (· = n) ids).Nodup := by
  induction ids using List.reverseRecOn with
  | nil => exact List.nodup_nil
  | append_singleton ids last ih =>
      rw [comings_concat]
      split
      · rename_i hn
        have hlast : last ∉ comings (· = n) ids := by
          rw [mem_comings]
          have hcount : ids.count last = n := of_decide_eq_true hn
          omega
        refine List.nodup_append.mpr ⟨ih, List.nodup_singleton last, ?_⟩
        rintro id hid _ hs rfl
        exact hlast (List.mem_singleton.mp hs ▸ hid)
      · rwa [List.append_nil]

-- At each place an id comes for the first time or has come before.
theorem length_comings (ids : List String) :
    (comings (· = 0) ids).length + (comings (0 < ·) ids).length = ids.length := by
  induction ids using List.reverseRecOn with
  | nil => rfl
  | append_singleton ids last ih =>
      rw [comings_concat, comings_concat]
      simp only [List.length_append, List.length_singleton]
      by_cases hn : ids.count last = 0
      · simp only [hn, decide_true, if_true, Nat.lt_irrefl, decide_false, Bool.false_eq_true,
          if_false, List.length_singleton, List.length_nil]
        omega
      · have hpos : 0 < ids.count last := Nat.pos_of_ne_zero hn
        simp only [hn, hpos, decide_true, if_true, decide_false, Bool.false_eq_true, if_false,
          List.length_singleton, List.length_nil]
        omega

namespace OrderedMap

variable {V : Type}

-- A key has the place of the first pair that has it.
theorem keys_ofList (pairs : List (String × V)) :
    (ofList pairs).keys = comings (· = 0) (pairs.map Prod.fst) := by
  induction pairs using List.reverseRecOn with
  | nil => rfl
  | append_singleton pairs last ih =>
      have hmem : last.1 ∈ (ofList pairs).keys ↔ (pairs.map Prod.fst).count last.1 ≠ 0 := by
        rw [mem_keys_ofList, ← List.count_pos_iff, Nat.pos_iff_ne_zero]
      rw [ofList_concat, keys_insert, List.map_append, List.map_singleton, comings_concat, ih]
      rw [ih] at hmem
      by_cases hn : (pairs.map Prod.fst).count last.1 = 0
      · rw [if_neg fun hm => hmem.mp hm hn, if_pos (decide_eq_true hn)]
      · rw [if_pos (hmem.mpr hn), if_neg (by simpa using hn), List.append_nil]

end OrderedMap

end ContentTypes
