import ContentTypes.Proofs.OrderedMap.Entries
import ContentTypes.Proofs.Reading.Filling

namespace ContentTypes.Reading

variable {σ ρ : Type}

-- The value that an object has under a key.
def memberUnder (members : List (Option String × σ)) (key : String) : Option σ :=
  members.lookup (some key)

theorem memberUnder_cons (name : String) (value : σ) (rest : List (Option String × σ))
    (key : String) :
    memberUnder ((some name, value) :: rest) key =
      if key = name then some value else memberUnder rest key := by
  rw [memberUnder, lookup_cons_eq]
  simp only [Option.some.injEq]
  rfl

-- The members of an object all of whose keys are text.
def named (entries : List (String × σ)) : List (Option String × σ) :=
  entries.map fun (key, value) => (some key, value)

theorem memberUnder_named (entries : List (String × σ)) (key : String) :
    memberUnder (named entries) key = entries.lookup key := by
  induction entries with
  | nil => rfl
  | cons first rest ih => rw [named, List.map_cons, memberUnder_cons, lookup_cons_eq, ← ih, named]

-- The value that an array has under a key: the item in the place of the slot with the key.
def itemUnder (slots : List (Slot σ ρ)) (items : List σ) (key : String) : Option σ :=
  ((slots.map Slot.key).zip items).lookup key

theorem itemUnder_cons (s : Slot σ ρ) (slots : List (Slot σ ρ)) (item : σ) (rest : List σ)
    (key : String) :
    itemUnder (s :: slots) (item :: rest) key =
      if key = s.key then some item else itemUnder slots rest key :=
  lookup_cons_eq _ _ _ _

namespace Shape

def keys (shape : Shape σ ρ) : List String := shape.slots.map Slot.key

-- No two slots have a key or a part of the record in common.
structure Independent (shape : Shape σ ρ) : Prop where
  nodup : shape.keys.Nodup
  commute : shape.slots.Pairwise Slot.Commutes

-- The keys of slots among the members, in their order.
def asked (shape : Shape σ ρ) (members : List (Option String × σ)) : List String :=
  (members.filterMap Prod.fst).filter (· ∈ shape.keys)

variable {shape : Shape σ ρ}

-- The slots that are still to be filled.
def due (shape : Shape σ ρ) (seen : List String) : List (Slot σ ρ) :=
  shape.slots.filter fun s => s.key ∉ seen

theorem due_nil (shape : Shape σ ρ) : shape.due [] = shape.slots := by
  simp [due]

theorem missingKey?_eq_none_iff {seen : List String} :
    shape.missingKey? seen = none ↔ ∀ s ∈ shape.due seen, s.need ≠ .required := by
  simp only [missingKey?, due, Option.map_eq_none_iff, List.find?_eq_none, List.mem_filter,
    Bool.and_eq_true, decide_eq_true_eq, Bool.not_eq_true', List.contains_eq_mem,
    decide_eq_false_iff_not, not_and, and_imp]
  constructor
  · exact fun h s hs hnew hneed => h s hs hneed hnew
  · exact fun h s hs hneed hnew => h s hs hnew hneed

-- A slot that is due may be filled first.
theorem due_perm (hnodup : shape.keys.Nodup) {seen : List String} {s : Slot σ ρ}
    (hs : s ∈ shape.slots) (hnew : s.key ∉ seen) :
    (shape.due seen).Perm (s :: shape.due (s.key :: seen)) := by
  obtain ⟨before, after, hsplit⟩ := List.append_of_mem hs
  rw [keys, hsplit, List.map_append, List.map_cons, List.nodup_middle, List.nodup_cons,
    List.mem_append, not_or] at hnodup
  have hsame : ∀ part : List (Slot σ ρ), s.key ∉ part.map Slot.key →
      part.filter (fun t => t.key ∉ s.key :: seen) = part.filter fun t => t.key ∉ seen := by
    intro part hpart
    apply List.filter_congr
    intro t ht
    have hne : t.key ≠ s.key := fun he => hpart (he ▸ List.mem_map_of_mem ht)
    simp [hne]
  have hlater : shape.due (s.key :: seen) =
      before.filter (fun t => t.key ∉ seen) ++ after.filter fun t => t.key ∉ seen := by
    rw [due, hsplit, List.filter_append, List.filter_cons_of_neg (by simp), hsame _ hnodup.1.1,
      hsame _ hnodup.1.2]
  rw [hlater, due, hsplit, List.filter_append, List.filter_cons_of_pos (by simp [hnew])]
  exact List.perm_middle

theorem find?_slot_eq_some {key : String} {s : Slot σ ρ}
    (h : shape.slots.find? (·.key == key) = some s) : s ∈ shape.slots ∧ s.key = key :=
  ⟨List.mem_of_find?_eq_some h, by simpa using List.find?_some h⟩

theorem notMem_keys_of_find? {key : String} (h : shape.slots.find? (·.key == key) = none) :
    key ∉ shape.keys := by
  intro hm
  obtain ⟨s, hs, rfl⟩ := List.mem_map.mp hm
  simpa using List.find?_eq_none.mp h s hs

-- An array fills as many slots as it has items, and the others may be left out.
theorem fillItems_eq_ok_iff {surplus : Nat → Fault} {index : Nat} {slots : List (Slot σ ρ)}
    (hnodup : (slots.map Slot.key).Nodup) {record result : ρ} {items : List σ} :
    shape.fillItems surplus index slots record items = .ok result ↔
      (items.length ≤ slots.length ∧ ∀ s ∈ slots.drop items.length, s.need = .defaulted) ∧
        fillFrom (itemUnder slots items) slots record = .ok result := by
  induction slots generalizing index record items with
  | nil =>
      cases items with
      | nil => simp [fillItems, fillFrom]
      | cons item rest => simp [fillItems]
  | cons s slots ih =>
      obtain ⟨hnew, hrest⟩ := List.nodup_cons.mp hnodup
      cases items with
      | nil =>
          have hnone : itemUnder (s :: slots) ([] : List σ) = fun _ => none := by
            funext key
            simp [itemUnder]
          have hnone' : itemUnder slots ([] : List σ) = fun _ => none := by
            funext key
            simp [itemUnder]
          rw [fillItems, hnone, fillFrom_absent rfl]
          by_cases hneed : s.need = .defaulted
          · rw [if_pos hneed, ih hrest, hnone']
            simp [hneed]
          · simp [hneed]
      | cons item rest =>
          have hgiven : itemUnder (s :: slots) (item :: rest) s.key = some item := by
            rw [itemUnder_cons, if_pos rfl]
          have hothers : ∀ next, fillFrom (itemUnder (s :: slots) (item :: rest)) slots next =
              fillFrom (itemUnder slots rest) slots next := by
            intro next
            apply fillFrom_congr
            intro t ht
            have hne : t.key ≠ s.key := fun he => hnew (he ▸ List.mem_map_of_mem ht)
            rw [itemUnder_cons, if_neg hne]
          rw [fillItems, fillFrom_present hgiven]
          simp only [hothers]
          cases hfill : s.fill record item with
          | error fault => simp
          | ok next => simp [ih hrest]

variable [Source σ]

-- Members that can be walked through when the slots of some keys are filled already.
structure Accepts (shape : Shape σ ρ) (seen : List String) (members : List (Option String × σ)) :
    Prop where
  texts : ∀ member ∈ members, member.1.isSome
  once : (shape.asked members).Nodup
  unseen : ∀ key ∈ shape.asked members, key ∉ seen
  skipped : ∀ key value, (some key, value) ∈ members → key ∉ shape.keys →
    Source.skip value = .ok ()

theorem accepts_nil (shape : Shape σ ρ) (seen : List String) : shape.Accepts seen [] := by
  constructor <;> simp [asked]

theorem accepts_cons_asked {seen : List String} {key : String} {value : σ}
    {rest : List (Option String × σ)} (hkey : key ∈ shape.keys) :
    shape.Accepts seen ((some key, value) :: rest) ↔
      key ∉ seen ∧ shape.Accepts (key :: seen) rest := by
  have hasked : shape.asked ((some key, value) :: rest) = key :: shape.asked rest := by
    simp [asked, hkey]
  constructor
  · rintro ⟨htexts, honce, hunseen, hskipped⟩
    rw [hasked] at honce hunseen
    obtain ⟨hnew, honce⟩ := List.nodup_cons.mp honce
    refine ⟨hunseen key List.mem_cons_self, fun member hm => htexts member (.tail _ hm), honce,
      fun other ho => ?_, fun other content hm => hskipped other content (.tail _ hm)⟩
    rw [List.mem_cons, not_or]
    exact ⟨fun he => hnew (he ▸ ho), hunseen other (.tail _ ho)⟩
  · rintro ⟨hnew, htexts, honce, hunseen, hskipped⟩
    refine ⟨?_, ?_, ?_, ?_⟩
    · rintro member (_ | ⟨_, hm⟩)
      · rfl
      · exact htexts member hm
    · rw [hasked, List.nodup_cons]
      exact ⟨fun hm => hunseen key hm List.mem_cons_self, honce⟩
    · rw [hasked]
      rintro other (_ | ⟨_, hm⟩)
      · exact hnew
      · exact fun hs => hunseen other hm (.tail _ hs)
    · rintro other content (_ | ⟨_, hm⟩) hother
      · exact absurd hkey hother
      · exact hskipped other content hm hother

theorem accepts_cons_skipped {seen : List String} {key : String} {value : σ}
    {rest : List (Option String × σ)} (hkey : key ∉ shape.keys) :
    shape.Accepts seen ((some key, value) :: rest) ↔
      Source.skip value = .ok () ∧ shape.Accepts seen rest := by
  have hasked : shape.asked ((some key, value) :: rest) = shape.asked rest := by
    simp [asked, hkey]
  constructor
  · rintro ⟨htexts, honce, hunseen, hskipped⟩
    rw [hasked] at honce hunseen
    exact ⟨hskipped key value List.mem_cons_self hkey, fun member hm => htexts member (.tail _ hm),
      honce, hunseen, fun other content hm => hskipped other content (.tail _ hm)⟩
  · rintro ⟨hskip, htexts, honce, hunseen, hskipped⟩
    refine ⟨?_, hasked ▸ honce, hasked ▸ hunseen, ?_⟩
    · rintro member (_ | ⟨_, hm⟩)
      · rfl
      · exact htexts member hm
    · rintro other content (_ | ⟨_, hm⟩) hother
      · exact hskip
      · exact hskipped other content hm hother

theorem Accepts.count_le_one {seen : List String} {members : List (Option String × σ)}
    (h : shape.Accepts seen members) {key : String} (hkey : key ∈ shape.keys) :
    (members.map Prod.fst).count (some key) ≤ 1 := by
  have hcount : (members.map Prod.fst).count (some key) = (shape.asked members).count key := by
    rw [asked, List.count_filter (by simpa using hkey)]
    clear h
    induction members with
    | nil => rfl
    | cons member rest ih =>
        obtain ⟨_ | name, value⟩ := member
        · simpa using ih
        · simpa [List.count_cons] using ih
  rw [hcount]
  exact List.nodup_iff_count_le_one.mp h.once key

-- Walking through the members is filling the slots that are due in their own order.
theorem fillMembers_eq_ok_iff (hs : shape.Independent) {seen : List String} {record result : ρ}
    {members : List (Option String × σ)} :
    shape.fillMembers seen record members = .ok result ↔
      shape.Accepts seen members ∧
        fillFrom (memberUnder members) (shape.due seen) record = .ok result := by
  induction members generalizing seen record with
  | nil =>
      have hnone : memberUnder ([] : List (Option String × σ)) = fun _ => none := rfl
      rw [hnone, fillFrom_nothing, ← missingKey?_eq_none_iff, fillMembers]
      cases shape.missingKey? seen <;> simp [accepts_nil]
  | cons member rest ih =>
      obtain ⟨_ | key, value⟩ := member
      · rw [fillMembers]
        exact ⟨fun h => (nomatch h),
          fun h => (nomatch h.1.texts (none, value) List.mem_cons_self)⟩
      · rw [fillMembers]
        cases hfind : shape.slots.find? (·.key == key) with
        | none =>
            have hkey := notMem_keys_of_find? hfind
            have hsame :
                fillFrom (memberUnder ((some key, value) :: rest)) (shape.due seen) record =
                  fillFrom (memberUnder rest) (shape.due seen) record := by
              apply fillFrom_congr
              intro s hm
              have hmem : s.key ∈ shape.keys := List.mem_map_of_mem (List.mem_filter.mp hm).1
              have hne : s.key ≠ key := fun he => hkey (he ▸ hmem)
              rw [memberUnder_cons, if_neg hne]
            rw [accepts_cons_skipped hkey, hsame, and_assoc, ← ih]
            cases Source.skip value <;> simp
        | some s =>
            obtain ⟨hmem, rfl⟩ := find?_slot_eq_some hfind
            rw [accepts_cons_asked (List.mem_map_of_mem hmem)]
            by_cases hseen : s.key ∈ seen
            · simp [hseen]
            · have hgiven : memberUnder ((some s.key, value) :: rest) s.key = some value := by
                rw [memberUnder_cons, if_pos rfl]
              have hothers : ∀ next, fillFrom (memberUnder ((some s.key, value) :: rest))
                  (shape.due (s.key :: seen)) next =
                  fillFrom (memberUnder rest) (shape.due (s.key :: seen)) next := by
                intro next
                apply fillFrom_congr
                intro t ht
                have hnew : t.key ∉ s.key :: seen := by simpa using (List.mem_filter.mp ht).2
                have hne : t.key ≠ s.key := fun he => hnew (he ▸ List.mem_cons_self)
                rw [memberUnder_cons, if_neg hne]
              rw [fillFrom_perm_iff (due_perm hs.nodup hmem hseen) (hs.commute.filter _),
                fillFrom_present hgiven]
              simp only [List.contains_eq_mem, hseen, decide_false, Bool.false_eq_true, if_false,
                not_false_eq_true, true_and, hothers]
              cases hfill : s.fill record value with
              | error fault => simp
              | ok next => simp [ih]

-- The values that are given for the slots.
def given (shape : Shape σ ρ) : Glance σ → String → Option σ
  | .obj members => memberUnder members
  | .arr items => itemUnder shape.slots items
  | _ => fun _ => none

-- Whether a record may be read from something of this form, whatever the values are.
def Admits (shape : Shape σ ρ) : Glance σ → Prop
  | .obj members => shape.Accepts [] members
  | .arr items =>
      items.length ≤ shape.slots.length ∧
        ∀ s ∈ shape.slots.drop items.length, s.need = .defaulted
  | _ => False

-- Of an array it is enough to know how long it is.
theorem admits_arr_iff {items : List σ} :
    shape.Admits (.arr items) ↔ items.length ≤ (shape.slots.map Slot.need).length ∧
      ∀ need ∈ (shape.slots.map Slot.need).drop items.length, need = .defaulted := by
  rw [List.length_map, ← List.map_drop, List.forall_mem_map]
  rfl

-- Records with the same keys and needs may be read from the same values.
theorem admits_congr {shape' : Shape σ ρ} (hkeys : shape'.keys = shape.keys)
    (hneeds : shape'.slots.map Slot.need = shape.slots.map Slot.need) {glance : Glance σ}
    (h : shape.Admits glance) : shape'.Admits glance := by
  cases glance with
  | obj members =>
      obtain ⟨htexts, honce, hunseen, hskipped⟩ := h
      have hasked : shape'.asked members = shape.asked members := by rw [asked, asked, hkeys]
      exact ⟨htexts, hasked ▸ honce, hasked ▸ hunseen, hkeys ▸ hskipped⟩
  | arr items =>
      rw [admits_arr_iff] at h ⊢
      rwa [hneeds]
  | _ => exact h.elim

theorem read_eq_ok_iff (hs : shape.Independent) {value : σ} {result : ρ} :
    shape.read value = .ok result ↔
      ∃ glance, Source.look value = .ok glance ∧ shape.Admits glance ∧
        fillFrom (shape.given glance) shape.slots shape.blank = .ok result := by
  rw [read, bind_eq_ok_iff]
  refine exists_congr fun glance => and_congr_right fun _ => ?_
  cases glance with
  | obj members =>
      rw [← due_nil shape]
      exact fillMembers_eq_ok_iff hs
  | arr items => exact fillItems_eq_ok_iff hs.nodup
  | _ => exact ⟨fun h => (nomatch h), fun h => (nomatch h.1)⟩

-- An object whose keys differ has nothing to stumble over, if all in it can be passed over.
theorem admits_named_of_skip {shape : Shape σ ρ} (hskip : ∀ value : σ, Source.skip value = .ok ())
    {entries : List (String × σ)} (h : (entries.map Prod.fst).Nodup) :
    shape.Admits (.obj (named entries)) := by
  have htexts : (named entries).filterMap Prod.fst = entries.map Prod.fst := by
    simp [named, List.filterMap_map]
  refine ⟨fun member hm => ?_, ?_, fun _ _ => List.not_mem_nil, fun _ value _ _ => hskip value⟩
  · obtain ⟨entry, -, rfl⟩ := List.mem_map.mp hm
    rfl
  · rw [asked, htexts]
    exact h.filter _

theorem admits_named {shape : Shape Json ρ} {entries : List (String × Json)}
    (h : (entries.map Prod.fst).Nodup) : shape.Admits (.obj (named entries)) :=
  admits_named_of_skip (fun _ => rfl) h

-- Only the values under the keys of the slots matter then.
theorem read_named_eq_ok_iff {shape : Shape σ ρ} (hs : shape.Independent)
    (hskip : ∀ value : σ, Source.skip value = .ok ()) {value : σ} {entries : List (String × σ)}
    (hlook : Source.look value = .ok (.obj (named entries))) (h : (entries.map Prod.fst).Nodup)
    {result : ρ} :
    shape.read value = .ok result ↔
      fillFrom (fun key => entries.lookup key) shape.slots shape.blank = .ok result := by
  have hgiven : shape.given (.obj (named entries)) = fun key => entries.lookup key :=
    funext (memberUnder_named entries)
  rw [read_eq_ok_iff hs, ← hgiven]
  constructor
  · intro hread
    obtain ⟨glance, hglance, -, hfill⟩ := hread
    obtain rfl := Except.ok.inj (hlook.symm.trans hglance)
    exact hfill
  · intro hfill
    exact ⟨_, hlook, admits_named_of_skip hskip h, hfill⟩

end Shape

end ContentTypes.Reading
