import ContentTypes.TypeScript.Writer

namespace ContentTypes.TypeScript

namespace Writer

variable (w : Writer)

@[simp] theorem depth_put (text : String) : (w.put text).depth = w.depth := rfl

@[simp] theorem depth_deeper : w.deeper.depth = w.depth + 1 := rfl

@[simp] theorem put_put (first second : String) :
    (w.put first).put second = w.put (first ++ second) := by
  simp only [put, String.append_assoc]

@[simp] theorem put_empty : w.put "" = w := by
  simp only [put, String.append_empty]

@[simp] theorem shallower_put (text : String) : (w.put text).shallower = w.shallower.put text := rfl

@[simp] theorem shallower_deeper : w.deeper.shallower = w := rfl

-- Pieces that are one text each, one after another. No piece changes how deep the next one stands.
theorem foldl_put {α : Type} {step : Writer → α → Writer} (text : Nat → α → String)
    (h : ∀ (w : Writer) (piece : α), step w piece = w.put (text w.depth piece)) (pieces : List α) :
    pieces.foldl step w = w.put (String.join (pieces.map (text w.depth))) := by
  induction pieces generalizing w with
  | nil => exact (put_empty w).symm
  | cons piece pieces ih =>
      rw [List.foldl_cons, ih, h, depth_put, put_put, List.map_cons, String.join_cons]

theorem putDocLine_eq (line : String) :
    w.putDocLine line = w.put (docLine (indentation w.depth) line) := by
  unfold putDocLine docLine putIndent
  split
  · rw [put_put]
  · rw [put_put, String.append_assoc, String.append_assoc, String.append_assoc]

theorem putDocLines_eq (lines : List String) :
    lines.foldl putDocLine w = w.put (String.join (lines.map (docLine (indentation w.depth)))) :=
  w.foldl_put (fun depth => docLine (indentation depth)) putDocLine_eq lines

theorem putTags_eq (tags : List DocTag) :
    tags.foldl putTag w = w.put (String.join
      ((tags.map fun tag => s!"@{tag.name} {tag.text}").map (docLine (indentation w.depth)))) := by
  rw [← putDocLines_eq, List.foldl_map]
  rfl

-- The empty line between the description and the tags, where it is asked for.
theorem putParting_eq (noLines noTags : Bool) :
    (if !noLines && !noTags then w.putDocLine "" else w) =
      w.put (String.join
        ((if noLines || noTags then [] else [""]).map (docLine (indentation w.depth)))) := by
  cases noLines <;> cases noTags <;> simp [putDocLine_eq]

theorem putDocs_eq (docs : Docs) : w.putDocs docs = w.put (docBlock (indentation w.depth) docs) := by
  unfold putDocs docBlock docLines putIndent
  split
  · rw [put_empty]
  · simp only [putDocLines_eq, putParting_eq, putTags_eq, put_put, depth_put, List.map_append,
      String.join_append, String.append_assoc]

theorem putExport_eq (options : Options) (exported : Bool) :
    w.putExport options exported = w.put (exportText options exported) := by
  unfold putExport exportText
  split
  · rfl
  · rw [put_empty]

-- A property at any depth. In a record it stands one level deep.
def fieldTextAt (depth : Nat) (field : RecordField) : String :=
  docBlock (indentation depth) field.docs ++ indentation depth ++ propertyKey field.name ++ ": " ++
    field.ty ++ ";\n"

theorem fieldTextAt_one : fieldTextAt 1 = fieldText := by
  have hindent : indentation 1 = "  " := String.append_empty
  funext field
  rw [fieldTextAt, hindent, fieldText]

theorem putField_eq (field : RecordField) :
    w.putField field = w.put (fieldTextAt w.depth field) := by
  rw [putField, putDocs_eq, putIndent, depth_put, put_put, put_put, fieldTextAt]
  simp only [String.append_assoc]

-- The properties of a record are written one level deeper, and behind them the writer is back.
theorem putFields_eq (fields : List RecordField) (h : w.depth = 0) :
    (fields.foldl putField w.deeper).shallower = w.put (String.join (fields.map fieldText)) := by
  rw [foldl_put _ fieldTextAt putField_eq, depth_deeper, h, Nat.zero_add, fieldTextAt_one,
    shallower_put, shallower_deeper]

-- What stands before the properties of a record, up to the brace that opens them.
theorem putOpening_eq (options : Options) (item : RecordItem) (h : w.depth = 0) :
    ((w.putDocs item.docs).putExport options item.exported).put
        ("interface " ++ item.name ++ " \x7b") =
      w.put (docBlock "" item.docs ++ exportText options item.exported ++
        "interface " ++ item.name ++ " \x7b") := by
  rw [putDocs_eq, h, indentation, putExport_eq, put_put, put_put]
  simp only [String.append_assoc]

theorem putRecord_eq (options : Options) (item : RecordItem) (h : w.depth = 0) :
    w.putRecord options item = w.put (recordText options item) := by
  have hbrace : ∀ rest : String, " \x7b" ++ rest = " " ++ ("\x7b" ++ rest) := by
    intro rest
    rw [← String.append_assoc]
    rfl
  unfold putRecord recordText fieldsText
  simp only [putOpening_eq w options item h]
  split
  · have hclosed : "\x7b\x7d\n" = "\x7b" ++ "\x7d\n" := rfl
    rw [put_put, hclosed]
    simp only [String.append_assoc, hbrace]
  · have hopened : "\x7b\n" = "\x7b" ++ "\n" := rfl
    rw [put_put, putFields_eq (w.put _) item.fields h, put_put, put_put, hopened]
    simp only [String.append_assoc, hbrace]

theorem putAlias_eq (options : Options) (item : AliasItem) (h : w.depth = 0) :
    w.putAlias options item = w.put (aliasText options item) := by
  have hparams : ∀ w : Writer, w.putParams item.params = w.put (paramsText item.params) := by
    intro w
    unfold putParams paramsText
    split
    · rw [put_empty]
    · rfl
  rw [putAlias, hparams, putExport_eq, putDocs_eq, h, indentation, aliasText]
  simp only [put_put, String.append_assoc]

-- An item is written alike wherever it stands in a module.
theorem putItem_eq (options : Options) (item : Item) (h : w.depth = 0) :
    w.putItem options item = w.put (itemText options item) := by
  match item with
  | .record item => exact w.putRecord_eq options item h
  | .alias item => exact w.putAlias_eq options item h

theorem putHeader_eq (options : Options) : w.putHeader options = w.put (headerText options) := by
  have hhelper : "type Simplify<T> = \x7b\n  [KeyType in keyof T]: T[KeyType];\n\x7d;\n" =
      "type Simplify<T> = \x7b\n" ++ ("  [KeyType in keyof T]: T[KeyType];\n" ++ "\x7d;\n") := rfl
  rw [putHeader, headerText, importText, hhelper]
  split
  · simp only [put_put, String.empty_append, String.append_assoc]
  · have hbreak : ";\n\n" = ";\n" ++ "\n" := rfl
    simp only [put_put, String.append_assoc, hbreak, toString]

-- Behind something else, an empty line stands before every item.
theorem putItems_behind (options : Options) (items : List Item) (place : Nat)
    (hplace : place > 0 ∨ options.header) (h : w.depth = 0) :
    putItems options place w items =
      w.put (String.join (items.map fun item => "\n" ++ itemText options item)) := by
  induction items generalizing w place with
  | nil => exact (put_empty w).symm
  | cons item rest ih =>
      have hparted : (place > 0 || options.header) = true := by simpa using hplace
      have hrest := fun text => ih (w.put text) (place + 1) (Or.inl (Nat.succ_pos place)) h
      rw [putItems, if_pos hparted, putItem_eq (w.put "\n") options item h, put_put, hrest, put_put,
        List.map_cons, String.join_cons]

end Writer

theorem intercalate_cons_eq_join (between first : String) (rest : List String) :
    between.intercalate (first :: rest) = first ++ String.join (rest.map (between ++ ·)) := by
  induction rest generalizing first with
  | nil => rw [String.intercalate_singleton, List.map_nil, String.join_nil, String.append_empty]
  | cons next rest ih =>
      rw [String.intercalate_cons_cons, ih, List.map_cons, String.join_cons]
      simp only [String.append_assoc]

-- What stands before the items.
def leadBlocks (options : Options) : List String :=
  if options.header then [headerText options] else []

theorem moduleText_eq (options : Options) (items : List Item) :
    moduleText options ⟨items⟩ =
      "\n".intercalate (leadBlocks options ++ items.map (itemText options)) := by
  unfold moduleText leadBlocks
  split <;> rfl

-- The writer writes the text of the module and is not deeper at the end than at the start.
theorem putModule_eq (w : Writer) (options : Options) (m : Module) (h : w.depth = 0) :
    w.putModule options m = w.put (moduleText options m) := by
  obtain ⟨items⟩ := m
  rw [moduleText_eq, leadBlocks, Writer.putModule]
  by_cases hheader : options.header
  · rw [if_pos hheader, if_pos hheader, Writer.putHeader_eq,
      (w.put _).putItems_behind options items 0 (Or.inr hheader) h, Writer.put_put,
      List.singleton_append, intercalate_cons_eq_join, List.map_map]
    rfl
  · rw [if_neg hheader, if_neg hheader, List.nil_append]
    cases items with
    | nil => exact w.put_empty.symm
    | cons item rest =>
        have hfirst : ¬(decide (0 > 0) || options.header) = true := by simpa using hheader
        rw [Writer.putItems, if_neg hfirst, w.putItem_eq options item h,
          (w.put _).putItems_behind options rest 1 (Or.inl Nat.one_pos) h, Writer.put_put,
          List.map_cons, intercalate_cons_eq_join, List.map_map]
        rfl

-- The first items with their header, then the others without one. The two are parted by an empty
-- line if there is something before it.
theorem moduleText_append (options : Options) (xs : List Item) {ys : List Item} (hys : ys ≠ []) :
    moduleText options ⟨xs ++ ys⟩ =
      moduleText options ⟨xs⟩ ++ (if options.header || !xs.isEmpty then "\n" else "") ++
        moduleText { options with header := false } ⟨ys⟩ := by
  have hitems : ys.map (itemText { options with header := false }) = ys.map (itemText options) :=
    List.map_congr_left fun item _ => by cases item <;> rfl
  have hlead : leadBlocks { options with header := false } = [] := rfl
  have hbefore : leadBlocks options ++ xs.map (itemText options) = [] ↔
      ¬(options.header || !xs.isEmpty) = true := by
    simp [leadBlocks]
  have hlater : ys.map (itemText options) ≠ [] := by simpa using hys
  rw [moduleText_eq, moduleText_eq, moduleText_eq, hitems, hlead, List.nil_append, List.map_append,
    ← List.append_assoc]
  by_cases hsome : options.header || !xs.isEmpty
  · have hne : leadBlocks options ++ xs.map (itemText options) ≠ [] := fun he => hbefore.mp he hsome
    rw [if_pos hsome, String.intercalate_append_of_ne_nil hne hlater]
  · rw [if_neg hsome, hbefore.mpr hsome, List.nil_append]
    simp

-- A module is written item by item. Each item is the same text wherever it stands, the writer is
-- back at the margin behind it, and a module of more items goes on where one of less items ends.
theorem module_text_composes (options : Options) :
    (∀ xs ys : List Item, ys ≠ [] →
      moduleText options ⟨xs ++ ys⟩ =
        moduleText options ⟨xs⟩ ++ (if options.header || !xs.isEmpty then "\n" else "") ++
          moduleText { options with header := false } ⟨ys⟩) ∧
    (∀ m : Module, Writer.start.putModule options m = ⟨moduleText options m, 0⟩) ∧
    ∀ (earlier : String) (item : Item),
      (⟨earlier, 0⟩ : Writer).putItem options item = ⟨earlier ++ itemText options item, 0⟩ := by
  refine ⟨fun xs ys hys => moduleText_append options xs hys, fun m => ?_, fun earlier item => ?_⟩
  · rw [putModule_eq _ options m rfl, Writer.put, Writer.start, String.empty_append]
  · exact Writer.putItem_eq _ options item rfl

def pageOptions : Options := ⟨"p", "types", false, true⟩

def pageRecord : Item :=
  .record ⟨"PageData", .line "Content", false, [⟨"title", "p.KeyTextField", .line "Label: Title"⟩]⟩

def pageAlias : Item := .alias ⟨"Page", .empty, true, [], "PageData"⟩

theorem module_text_composes_page :
    [pageAlias] ≠ [] ∧
      moduleText pageOptions ⟨[pageRecord] ++ [pageAlias]⟩ =
        moduleText pageOptions ⟨[pageRecord]⟩ ++ "\n" ++
          moduleText { pageOptions with header := false } ⟨[pageAlias]⟩ ∧
      moduleText { pageOptions with header := false } ⟨[pageAlias]⟩ =
        "export type Page = PageData;\n" := by
  have hsome : [pageAlias] ≠ [] := List.cons_ne_nil _ _
  exact ⟨hsome, (module_text_composes pageOptions).1 [pageRecord] [pageAlias] hsome, by decide⟩

end ContentTypes.TypeScript
