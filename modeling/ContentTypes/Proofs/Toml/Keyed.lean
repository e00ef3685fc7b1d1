import ContentTypes.Proofs.OrderedMap.Entries
import ContentTypes.Toml.Outline

namespace ContentTypes

namespace OrderedMap

variable {V : Type} {holds : V → Prop} {map : OrderedMap V}

-- No key comes twice, and something holds of every value.
def IsKeyed (holds : V → Prop) (map : OrderedMap V) : Prop :=
  map.keys.Nodup ∧ ∀ entry ∈ map.entries, holds entry.2

theorem isKeyed_empty : IsKeyed holds .empty :=
  ⟨List.nodup_nil, fun _ hm => absurd hm List.not_mem_nil⟩

theorem IsKeyed.get? (h : IsKeyed holds map) {key : String} {value : V}
    (hget : map.get? key = some value) : holds value :=
  h.2 (key, value) (mem_of_lookup_eq_some hget)

theorem mem_exchange {key : String} {value : V} {entries : List (String × V)} {entry : String × V}
    (h : entry ∈ (exchange key value entries).2) : entry = (key, value) ∨ entry ∈ entries := by
  induction entries with
  | nil => exact .inl (List.mem_singleton.mp h)
  | cons first rest ih =>
      rw [exchange] at h
      by_cases hk : first.1 = key
      · rw [if_pos hk] at h
        exact (List.mem_cons.mp h).imp_right (List.mem_cons_of_mem _)
      · rw [if_neg hk] at h
        rcases List.mem_cons.mp h with he | hr
        · exact .inr (he ▸ List.mem_cons_self)
        · exact (ih hr).imp_right (List.mem_cons_of_mem _)

theorem IsKeyed.insert (h : IsKeyed holds map) (key : String) {value : V} (hvalue : holds value) :
    IsKeyed holds (map.insert key value) := by
  refine ⟨nodup_insert h.1 key value, fun entry hm => ?_⟩
  rcases mem_exchange hm with he | hold
  · rw [he]
    exact hvalue
  · exact h.2 entry hold

theorem IsKeyed.erase (h : IsKeyed holds map) (key : String) : IsKeyed holds (map.erase key) := by
  refine ⟨h.1.sublist (List.filter_sublist.map Prod.fst), fun entry hm => ?_⟩
  exact h.2 entry (List.mem_filter.mp hm).1

theorem isKeyed_cons {key : String} {value : V} {rest : List (String × V)} :
    IsKeyed holds ⟨(key, value) :: rest⟩ ↔
      key ∉ rest.map Prod.fst ∧ holds value ∧ IsKeyed holds ⟨rest⟩ := by
  simp only [IsKeyed, keys, List.map_cons, List.nodup_cons, List.forall_mem_cons]
  constructor
  · intro h
    exact ⟨h.1.1, h.2.1, h.1.2, h.2.2⟩
  · intro h
    exact ⟨⟨h.1, h.2.2.1⟩, h.2.1, h.2.2.2⟩

end OrderedMap

namespace Toml

mutual

-- No table that dotted keys lead to has a key twice. They do not lead into arrays.
def IsKeyed : Toml → Prop
  | .table ⟨entries⟩ => EntriesKeyed entries
  | _ => True

def EntriesKeyed : List (String × Toml) → Prop
  | [] => True
  | (key, value) :: rest => key ∉ rest.map Prod.fst ∧ value.IsKeyed ∧ EntriesKeyed rest

end

abbrev Table.IsKeyed (table : Table) : Prop := OrderedMap.IsKeyed Toml.IsKeyed table

theorem entriesKeyed_iff {entries : List (String × Toml)} :
    EntriesKeyed entries ↔ Table.IsKeyed ⟨entries⟩ := by
  induction entries with
  | nil => exact ⟨fun _ => OrderedMap.isKeyed_empty, fun _ => trivial⟩
  | cons first rest ih =>
      obtain ⟨key, value⟩ := first
      rw [EntriesKeyed, ih]
      exact OrderedMap.isKeyed_cons.symm

theorem isKeyed_table {table : Table} : IsKeyed (.table table) ↔ table.IsKeyed := entriesKeyed_iff

namespace Node

mutual

def IsKeyed : Node → Prop
  | .value inner => inner.IsKeyed
  | .table _ ⟨entries⟩ => NodesKeyed entries
  | .tables elements => ElementsKeyed elements

def NodesKeyed : List (String × Node) → Prop
  | [] => True
  | (key, node) :: rest => key ∉ rest.map Prod.fst ∧ node.IsKeyed ∧ NodesKeyed rest

def ElementsKeyed : List (OrderedMap Node) → Prop
  | [] => True
  | ⟨entries⟩ :: rest => NodesKeyed entries ∧ ElementsKeyed rest

end

end Node

abbrev Outline.IsKeyed (outline : Outline) : Prop := OrderedMap.IsKeyed Node.IsKeyed outline

namespace Node

theorem nodesKeyed_iff {entries : List (String × Node)} :
    NodesKeyed entries ↔ Outline.IsKeyed ⟨entries⟩ := by
  induction entries with
  | nil => exact ⟨fun _ => OrderedMap.isKeyed_empty, fun _ => trivial⟩
  | cons first rest ih =>
      obtain ⟨key, node⟩ := first
      rw [NodesKeyed, ih]
      exact OrderedMap.isKeyed_cons.symm

theorem isKeyed_table {origin : Origin} {outline : Outline} :
    IsKeyed (.table origin outline) ↔ outline.IsKeyed := nodesKeyed_iff

theorem isKeyed_tables {elements : List Outline} :
    IsKeyed (.tables elements) ↔ ∀ outline ∈ elements, outline.IsKeyed := by
  rw [IsKeyed]
  induction elements with
  | nil => simp [ElementsKeyed]
  | cons first rest ih =>
      obtain ⟨entries⟩ := first
      rw [ElementsKeyed, ih, nodesKeyed_iff, List.forall_mem_cons]

theorem keys_entriesToToml (entries : List (String × Node)) :
    (entriesToToml entries).map Prod.fst = entries.map Prod.fst := by
  induction entries with
  | nil => rfl
  | cons first rest ih =>
      rw [entriesToToml, List.map_cons, List.map_cons, ih]

mutual

theorem isKeyed_toToml : (node : Node) → node.IsKeyed → node.toToml.IsKeyed
  | .value inner, h => by
      rw [IsKeyed] at h
      rwa [toToml]
  | .table origin ⟨entries⟩, h => by
      rw [IsKeyed] at h
      rw [toToml, Toml.IsKeyed]
      exact entriesKeyed_entriesToToml entries h
  | .tables elements, _ => by
      rw [toToml, Toml.IsKeyed]
      · trivial
      · intro entries he
        cases he

theorem entriesKeyed_entriesToToml : (entries : List (String × Node)) → NodesKeyed entries →
    EntriesKeyed (entriesToToml entries)
  | [], _ => trivial
  | (key, node) :: rest, h => by
      rw [NodesKeyed] at h
      rw [entriesToToml, EntriesKeyed, keys_entriesToToml]
      exact ⟨h.1, isKeyed_toToml node h.2.1, entriesKeyed_entriesToToml rest h.2.2⟩

end

end Node

namespace Outline

theorem isKeyed_toTable {outline : Outline} (h : outline.IsKeyed) : outline.toTable.IsKeyed :=
  entriesKeyed_iff.mp (Node.entriesKeyed_entriesToToml _ (Node.nodesKeyed_iff.mpr h))

-- What a visit of a table makes of the whole is what it makes of the table.
theorem isKeyed_visit {α : Type} (found : α → Prop) {made : Origin}
    {change : Origin → Outline → Option (Outline × α)}
    (hchange : ∀ origin entries entries' result, IsKeyed entries →
      change origin entries = some (entries', result) → entries'.IsKeyed ∧ found result)
    {path : List String} {origin : Origin} {outline outline' : Outline} {result : α}
    (h : outline.IsKeyed) (hvisit : visit made change path origin outline = some (outline', result)) :
    outline'.IsKeyed ∧ found result := by
  induction path generalizing origin outline outline' with
  | nil => exact hchange origin outline outline' result h hvisit
  | cons key path ih =>
      rw [visit] at hvisit
      cases hget : outline.get? key with
      | none =>
          simp only [hget, Option.bind_eq_bind, Option.bind_eq_some_iff] at hvisit
          obtain ⟨⟨inner, other⟩, hinner, he⟩ := hvisit
          cases he
          have hboth := ih OrderedMap.isKeyed_empty hinner
          exact ⟨h.insert key (Node.isKeyed_table.mpr hboth.1), hboth.2⟩
      | some node =>
          have hnode : node.IsKeyed := h.get? hget
          cases node with
          | value inner =>
              simp only [hget] at hvisit
              cases hvisit
          | table origin' inner =>
              simp only [hget] at hvisit
              split at hvisit
              · cases hvisit
              · simp only [Option.bind_eq_bind, Option.bind_eq_some_iff] at hvisit
                obtain ⟨⟨inner', other⟩, hinner, he⟩ := hvisit
                cases he
                have hboth := ih (Node.isKeyed_table.mp hnode) hinner
                exact ⟨h.insert key (Node.isKeyed_table.mpr hboth.1), hboth.2⟩
          | tables elements =>
              simp only [hget, Option.bind_eq_bind, Option.bind_eq_some_iff] at hvisit
              obtain ⟨last, hlast, ⟨inner', other⟩, hinner, he⟩ := hvisit
              cases he
              have hall := Node.isKeyed_tables.mp hnode
              have hboth := ih (hall last (List.mem_of_getLast? hlast)) hinner
              have helements : Node.IsKeyed (.tables (elements.dropLast ++ [inner'])) := by
                rw [Node.isKeyed_tables, List.forall_mem_append, List.forall_mem_singleton]
                exact ⟨fun element hm => hall element (List.dropLast_subset elements hm), hboth.1⟩
              exact ⟨h.insert key helements, hboth.2⟩

theorem isKeyed_assign {outline outline' : Outline} {path : List String} {key : String}
    {value : Toml} (h : outline.IsKeyed) (hvalue : value.IsKeyed)
    (hassign : outline.assign path key value = some outline') : outline'.IsKeyed := by
  obtain ⟨⟨after, found⟩, hvisit, rfl⟩ := Option.map_eq_some_iff.mp hassign
  refine (isKeyed_visit (fun _ => True) ?_ h hvisit).1
  intro origin entries entries' result hentries hchange
  split at hchange
  · cases hchange
    exact ⟨hentries.insert key hvalue, trivial⟩
  · cases hchange

theorem isKeyed_openTable {outline outline' opened : Outline} {path : List String} {key : String}
    (h : outline.IsKeyed) (hopen : outline.openTable path key = some (outline', opened)) :
    outline'.IsKeyed ∧ opened.IsKeyed := by
  refine isKeyed_visit Outline.IsKeyed ?_ h hopen
  intro origin entries entries' result hentries hchange
  split at hchange
  · cases hchange
    exact ⟨hentries, OrderedMap.isKeyed_empty⟩
  · rename_i known hget
    cases hchange
    exact ⟨hentries.erase key, Node.isKeyed_table.mp (hentries.get? hget)⟩
  · cases hchange

theorem isKeyed_closeTable {outline outline' table : Outline} {path : List String} {key : String}
    (h : outline.IsKeyed) (htable : table.IsKeyed)
    (hclose : outline.closeTable path key table = some outline') : outline'.IsKeyed := by
  obtain ⟨⟨after, found⟩, hvisit, rfl⟩ := Option.map_eq_some_iff.mp hclose
  refine (isKeyed_visit (fun _ => True) ?_ h hvisit).1
  intro origin entries entries' result hentries hchange
  cases hchange
  exact ⟨hentries.insert key (Node.isKeyed_table.mpr htable), trivial⟩

theorem isKeyed_openElement {outline outline' : Outline} {path : List String} {key : String}
    (h : outline.IsKeyed) (hopen : outline.openElement path key = some outline') :
    outline'.IsKeyed := by
  obtain ⟨⟨after, found⟩, hvisit, rfl⟩ := Option.map_eq_some_iff.mp hopen
  refine (isKeyed_visit (fun _ => True) ?_ h hvisit).1
  intro origin entries entries' result hentries hchange
  split at hchange
  · cases hchange
    exact ⟨hentries.insert key (Node.isKeyed_tables.mpr (by simp)), trivial⟩
  · cases hchange
    exact ⟨hentries, trivial⟩
  · cases hchange

theorem isKeyed_closeElement {outline outline' table : Outline} {path : List String} {key : String}
    (h : outline.IsKeyed) (htable : table.IsKeyed)
    (hclose : outline.closeElement path key table = some outline') : outline'.IsKeyed := by
  obtain ⟨⟨after, found⟩, hvisit, rfl⟩ := Option.map_eq_some_iff.mp hclose
  refine (isKeyed_visit (fun _ => True) ?_ h hvisit).1
  intro origin entries entries' result hentries hchange
  split at hchange
  · rename_i elements hget
    cases hchange
    have helements := Node.isKeyed_tables.mp (hentries.get? hget)
    have hlonger : Node.IsKeyed (.tables (elements ++ [table])) := by
      rw [Node.isKeyed_tables, List.forall_mem_append, List.forall_mem_singleton]
      exact ⟨helements, htable⟩
    exact ⟨hentries.insert key hlonger, trivial⟩
  · cases hchange

end Outline

-- The values that a statement brings.
def Statement.IsKeyed : Statement → Prop
  | .assign _ _ value => value.IsKeyed
  | .table .. | .element .. => True

namespace Progress

structure IsKeyed (progress : Progress) : Prop where
  closed : progress.closed.IsKeyed
  current : progress.current.IsKeyed

theorem IsKeyed.close? {progress : Progress} {outline : Outline} (h : progress.IsKeyed)
    (hclose : progress.close? = some outline) : outline.IsKeyed := by
  obtain ⟨closed, place, current⟩ := progress
  cases place with
  | root =>
      cases hclose
      exact h.current
  | table path key => exact Outline.isKeyed_closeTable h.closed h.current hclose
  | element path key => exact Outline.isKeyed_closeElement h.closed h.current hclose

theorem IsKeyed.step? {progress progress' : Progress} {statement : Statement}
    (h : progress.IsKeyed) (hstatement : statement.IsKeyed)
    (hstep : progress.step? statement = some progress') : progress'.IsKeyed := by
  cases statement with
  | assign path key value =>
      obtain ⟨outline, hassign, he⟩ := Option.bind_eq_some_iff.mp hstep
      cases he
      exact ⟨h.closed, Outline.isKeyed_assign h.current hstatement hassign⟩
  | table path key =>
      obtain ⟨outline, hclose, hstep⟩ := Option.bind_eq_some_iff.mp hstep
      obtain ⟨⟨closed, opened⟩, hopen, he⟩ := Option.bind_eq_some_iff.mp hstep
      cases he
      have hboth := Outline.isKeyed_openTable (h.close? hclose) hopen
      exact ⟨hboth.1, hboth.2⟩
  | element path key =>
      obtain ⟨outline, hclose, hstep⟩ := Option.bind_eq_some_iff.mp hstep
      obtain ⟨closed, hopen, he⟩ := Option.bind_eq_some_iff.mp hstep
      cases he
      exact ⟨Outline.isKeyed_openElement (h.close? hclose) hopen, OrderedMap.isKeyed_empty⟩

end Progress

-- What each step of a run keeps holds after the run.
theorem foldlM_keeps {α β : Type} {step : β → α → Option β} {holds : β → Prop} {items : List α}
    (hstep : ∀ item ∈ items, ∀ state state', holds state → step state item = some state' →
      holds state') {first last : β} (h : holds first)
    (hrun : items.foldlM step first = some last) : holds last := by
  induction items generalizing first with
  | nil =>
      cases hrun
      exact h
  | cons item rest ih =>
      rw [List.foldlM_cons] at hrun
      obtain ⟨next, hnext, hrest⟩ := Option.bind_eq_some_iff.mp hrun
      exact ih (fun other hm => hstep other (List.mem_cons_of_mem _ hm))
        (hstep item List.mem_cons_self first next h hnext) hrest

theorem Table.isKeyed_ofStatements? {statements : List Statement} {table : Table}
    (h : ∀ statement ∈ statements, statement.IsKeyed)
    (htable : Table.ofStatements? statements = some table) : table.IsKeyed := by
  obtain ⟨progress, hrun, htable⟩ := Option.bind_eq_some_iff.mp htable
  obtain ⟨outline, hclose, he⟩ := Option.bind_eq_some_iff.mp htable
  cases he
  have hstart : Progress.start.IsKeyed := ⟨OrderedMap.isKeyed_empty, OrderedMap.isKeyed_empty⟩
  have hlast : progress.IsKeyed :=
    foldlM_keeps (fun statement hm state state' hs => hs.step? (h statement hm)) hstart hrun
  exact Outline.isKeyed_toTable (hlast.close? hclose)

theorem Table.isKeyed_ofPairs? {pairs : List (List String × String × Toml)} {table : Table}
    (h : ∀ pair ∈ pairs, pair.2.2.IsKeyed) (htable : Table.ofPairs? pairs = some table) :
    table.IsKeyed := by
  obtain ⟨outline, hrun, he⟩ := Option.bind_eq_some_iff.mp htable
  cases he
  have hstep : ∀ pair ∈ pairs, ∀ known known' : Outline, known.IsKeyed →
      known.assign pair.1 pair.2.1 pair.2.2 = some known' → known'.IsKeyed :=
    fun pair hm known known' hknown hassign => Outline.isKeyed_assign hknown (h pair hm) hassign
  exact Outline.isKeyed_toTable (foldlM_keeps hstep OrderedMap.isKeyed_empty hrun)

end Toml

end ContentTypes
