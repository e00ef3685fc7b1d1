import ContentTypes.Proofs.Toml.Keyed
import ContentTypes.Toml.Text

namespace ContentTypes.Toml

-- Whatever the parser takes off a text is of a kind.
def Ensures {α : Type} (holds : α → Prop) (parser : Parser α) : Prop :=
  ∀ chars value rest, parser chars = some (value, rest) → holds value

namespace Ensures

variable {α β : Type} {holds : α → Prop} {after : β → Prop}

theorem of_run {parser : Parser α} (h : Ensures holds parser) {chars rest : List Char} {value : α}
    (hparse : parser chars = some (value, rest)) : holds value := h chars value rest hparse

theorem pure {value : α} (h : holds value) : Ensures holds (pure value) := by
  intro chars other rest hparse
  cases hparse
  exact h

theorem failure : Ensures holds (failure : Parser α) := by
  intro chars value rest hparse
  cases hparse

theorem bind {parser : Parser α} {next : α → Parser β} (h : Ensures holds parser)
    (hnext : ∀ value, holds value → Ensures after (next value)) :
    Ensures after (parser >>= next) := by
  intro chars result rest hparse
  obtain ⟨⟨value, left⟩, hvalue, hresult⟩ := Option.bind_eq_some_iff.mp hparse
  exact hnext value (h chars value left hvalue) left result rest hresult

-- Where nothing needs to be known of what comes first.
theorem seq {parser : Parser α} {next : α → Parser β} (hnext : ∀ value, Ensures after (next value)) :
    Ensures after (parser >>= next) := by
  have hanything : Ensures (fun _ => True) parser := fun _ _ _ _ => trivial
  exact hanything.bind fun value _ => hnext value

theorem orElse {first second : Parser α} (h : Ensures holds first) (h' : Ensures holds second) :
    Ensures holds (first <|> second) := by
  intro chars value rest hparse
  have hcases : first chars = some (value, rest) ∨ second chars = some (value, rest) := by
    change (first chars).orElse (fun _ => second chars) = some (value, rest) at hparse
    cases hfirst : first chars with
    | none =>
        rw [hfirst] at hparse
        exact .inr hparse
    | some found =>
        rw [hfirst] at hparse
        exact .inl hparse
  rcases hcases with hfirst | hsecond
  · exact h chars value rest hfirst
  · exact h' chars value rest hsecond

theorem optional {parser : Parser α} (h : Ensures holds parser) :
    Ensures (fun found => ∀ value ∈ found, holds value) (optional parser) := by
  apply orElse
  · exact bind h fun value hvalue => pure (by simpa using hvalue)
  · exact pure (by simp)

-- The rest of a parser that fails where something is refused.
theorem refusing {refused : Prop} [Decidable refused] {next : PUnit → Parser α}
    (h : ∀ value, Ensures holds (next value)) :
    Ensures holds (if refused then Alternative.failure >>= next else next ⟨⟩) := by
  split
  · exact seq h
  · exact h ⟨⟩

theorem lift {found : Option α} (h : ∀ value, found = some value → holds value) :
    Ensures holds (StateT.lift found) := by
  intro chars value rest hparse
  obtain ⟨other, hfound, he⟩ := Option.bind_eq_some_iff.mp hparse
  cases he
  exact h _ hfound

end Ensures

-- What is not written with braces is no table.
section Scalars

theorem ensures_truth : Ensures IsKeyed truth := by
  refine .orElse ?_ ?_
  · exact .seq fun _ => .pure trivial
  · exact .seq fun _ => .pure trivial

theorem ensures_dateOrTime : Ensures IsKeyed dateOrTime := .seq fun _ => .pure trivial

theorem ensures_decimalFloat : Ensures IsKeyed decimalFloat := by
  refine .seq fun _ => .seq fun _ => .seq fun _ => .seq fun _ => ?_
  exact .refusing fun _ => .refusing fun _ => .pure trivial

theorem ensures_specialFloat : Ensures IsKeyed specialFloat :=
  .seq fun _ => .seq fun _ => .pure trivial

theorem isKeyed_integer64? {n : Int} {value : Toml} (h : integer64? n = some value) :
    value.IsKeyed := by
  rw [integer64?] at h
  split at h
  · cases h
    trivial
  · cases h

theorem ensures_integer : Ensures IsKeyed integer := by
  intro chars value rest hparse
  unfold integer at hparse
  split at hparse
  · refine Ensures.of_run ?_ hparse
    exact .seq fun _ => .lift fun _ => isKeyed_integer64?
  · refine Ensures.of_run ?_ hparse
    exact .seq fun _ => .lift fun _ => isKeyed_integer64?
  · refine Ensures.of_run ?_ hparse
    exact .seq fun _ => .lift fun _ => isKeyed_integer64?
  · refine Ensures.of_run ?_ hparse
    exact .seq fun _ => .seq fun _ => .lift fun _ => isKeyed_integer64?

theorem ensures_scalar : Ensures IsKeyed scalar := by
  refine .orElse (.seq fun _ => .pure trivial) (.orElse ensures_truth (.orElse ensures_dateOrTime ?_))
  exact .orElse ensures_decimalFloat (.orElse ensures_specialFloat ensures_integer)

end Scalars

theorem ensures_separated {α : Type} {holds : α → Prop} {one : Parser α} (h : Ensures holds one)
    (more : Nat) : Ensures (fun found => ∀ value ∈ found, holds value) (separated one more) := by
  induction more with
  | zero => exact .failure
  | succ more ih =>
      refine .bind h fun first hfirst => .bind (.orElse (.seq fun _ => ih) (.pure (by simp))) ?_
      intro rest hrest
      exact .pure (List.forall_mem_cons.mpr ⟨hfirst, hrest⟩)

theorem ensures_pair {value : Parser Toml} (h : Ensures IsKeyed value) :
    Ensures (fun found => found.2.2.IsKeyed) (pair value) := by
  refine .seq fun path => .seq fun _ => .seq fun _ => .bind h fun found hfound => .seq fun _ => ?_
  exact .pure hfound

theorem ensures_inlineTable {value : Parser Toml} (h : Ensures IsKeyed value) :
    Ensures IsKeyed (inlineTable value) := by
  refine .seq fun _ => .seq fun size => .bind (.optional (ensures_separated (ensures_pair h) size)) ?_
  intro pairs hpairs
  refine .seq fun _ => .seq fun _ => .bind (.lift ?_) fun table htable => .pure htable
  have hall : ∀ pair ∈ pairs.getD [], pair.2.2.IsKeyed := by
    cases pairs with
    | none => simp
    | some found => exact hpairs found rfl
  exact fun table htable => isKeyed_table.mpr (Table.isKeyed_ofPairs? hall htable)

theorem ensures_array {value : Parser Toml} : Ensures IsKeyed (array value) :=
  .seq fun _ => .seq fun _ => .seq fun _ => .seq fun _ => .seq fun _ => .seq fun _ => .pure trivial

theorem ensures_value (levels : Nat) : Ensures IsKeyed (value levels) := by
  induction levels with
  | zero => exact ensures_scalar
  | succ levels ih =>
      exact .orElse ensures_array (.orElse (ensures_inlineTable ih) ensures_scalar)

theorem ensures_statement : Ensures Statement.IsKeyed statement := by
  intro chars found rest hparse
  unfold statement at hparse
  split at hparse
  · refine Ensures.of_run ?_ hparse
    exact .seq fun _ => .seq fun _ => .seq fun _ => .pure trivial
  · refine Ensures.of_run ?_ hparse
    exact .seq fun _ => .seq fun _ => .seq fun _ => .pure trivial
  · refine Ensures.of_run ?_ hparse
    refine .seq fun _ => .seq fun _ => .seq fun _ => .bind (ensures_value depthLimit) ?_
    intro value hvalue
    exact .seq fun _ => .pure hvalue

theorem ensures_statements (more : Nat) :
    Ensures (fun found => ∀ statement ∈ found, statement.IsKeyed) (statements more) := by
  induction more with
  | zero => exact .failure
  | succ more ih =>
      refine .seq fun _ => .seq fun left => ?_
      split
      · exact .pure (by simp)
      · split
        · exact .seq fun _ => ih
        · refine .bind ensures_statement fun first hfirst => .bind ih fun rest hrest => ?_
          exact .pure (List.forall_mem_cons.mpr ⟨hfirst, hrest⟩)

section Dates

-- Dates take the place of tables, and are none.
theorem isKeyed_datetime? {text : String} {value : Toml} (h : datetime? text = some value) :
    value.IsKeyed := by
  rw [datetime?] at h
  split at h
  · rename_i found hparse
    cases h
    exact ensures_dateOrTime _ _ _ hparse
  · cases h

theorem keys_datedEntries? {entries dated : List (String × Toml)}
    (h : datedEntries? entries = some dated) : dated.map Prod.fst = entries.map Prod.fst := by
  induction entries generalizing dated with
  | nil =>
      cases h
      rfl
  | cons first rest ih =>
      obtain ⟨key, value⟩ := first
      rw [datedEntries?] at h
      obtain ⟨value', -, h⟩ := Option.bind_eq_some_iff.mp h
      obtain ⟨rest', hrest, he⟩ := Option.bind_eq_some_iff.mp h
      cases he
      rw [List.map_cons, List.map_cons, ih hrest]

mutual

theorem isKeyed_dated? : (value dated : Toml) → value.IsKeyed → value.dated? = some dated →
    dated.IsKeyed
  | .table ⟨[]⟩, dated, _, hdated => by
      rw [Toml.dated?] at hdated
      · cases hdated
        trivial
      · intro key value rest he
        cases he
      · intro items he
        cases he
  | .table ⟨(key, value) :: rest⟩, dated, h, hdated => by
      unfold Toml.dated? at hdated
      split at hdated
      · split at hdated
        · exact isKeyed_datetime? hdated
        · cases hdated
      · rw [IsKeyed, EntriesKeyed] at h
        obtain ⟨first, hfirst, hdated⟩ := Option.bind_eq_some_iff.mp hdated
        obtain ⟨others, hothers, he⟩ := Option.bind_eq_some_iff.mp hdated
        cases he
        rw [IsKeyed, EntriesKeyed, keys_datedEntries? hothers]
        exact ⟨h.1, isKeyed_dated? value first h.2.1 hfirst,
          entriesKeyed_datedEntries? rest others h.2.2 hothers⟩
  | .arr items, dated, _, hdated => by
      rw [Toml.dated?] at hdated
      obtain ⟨others, -, rfl⟩ := Option.map_eq_some_iff.mp hdated
      trivial
  | .str _, dated, h, hdated | .int _, dated, h, hdated | .float _, dated, h, hdated
  | .bool _, dated, h, hdated | .datetime _, dated, h, hdated => by
      cases hdated
      exact h

theorem entriesKeyed_datedEntries? : (entries dated : List (String × Toml)) →
    EntriesKeyed entries → datedEntries? entries = some dated → EntriesKeyed dated
  | [], dated, _, hdated => by
      cases hdated
      trivial
  | (key, value) :: rest, dated, h, hdated => by
      rw [EntriesKeyed] at h
      rw [datedEntries?] at hdated
      obtain ⟨first, hfirst, hdated⟩ := Option.bind_eq_some_iff.mp hdated
      obtain ⟨others, hothers, he⟩ := Option.bind_eq_some_iff.mp hdated
      cases he
      rw [EntriesKeyed, keys_datedEntries? hothers]
      exact ⟨h.1, isKeyed_dated? value first h.2.1 hfirst,
        entriesKeyed_datedEntries? rest others h.2.2 hothers⟩

end

end Dates

theorem isKeyed_ofText? {text : String} {table : Table} (h : ofText? text = some table) :
    table.IsKeyed := by
  obtain ⟨⟨found, rest⟩, hparse, h⟩ := Option.bind_eq_some_iff.mp h
  obtain ⟨undated, htable, h⟩ := Option.bind_eq_some_iff.mp h
  obtain ⟨entries, hdated, rfl⟩ := Option.map_eq_some_iff.mp h
  have hstatements := ensures_statements _ _ _ _ hparse
  have hundated := Table.isKeyed_ofStatements? hstatements htable
  exact entriesKeyed_iff.mp
    (entriesKeyed_datedEntries? _ _ (entriesKeyed_iff.mpr hundated) hdated)

end ContentTypes.Toml
