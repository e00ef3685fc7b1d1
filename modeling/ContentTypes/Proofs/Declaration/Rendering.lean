import ContentTypes.Proofs.Declaration.Unions
import ContentTypes.Proofs.Json.Quoted
import ContentTypes.TypeScript

namespace ContentTypes

namespace Text

-- What follows is nothing, or it starts with one of the marks.
def StartsWith (marks rest : List Char) : Prop := ∀ c ∈ rest.head?, c ∈ marks

theorem startsWith_nil (marks : List Char) : StartsWith marks [] := by simp [StartsWith]

theorem startsWith_cons {marks : List Char} {c : Char} {rest : List Char} :
    StartsWith marks (c :: rest) ↔ c ∈ marks := by simp [StartsWith]

theorem StartsWith.mono {marks more rest : List Char} (h : StartsWith marks rest)
    (hsub : marks ⊆ more) : StartsWith more rest := fun c hc => hsub (h c hc)

-- A word goes up to the first mark.
theorem word_append_inj {marks word other rest tail : List Char} (hw : ∀ c ∈ word, c ∉ marks)
    (ho : ∀ c ∈ other, c ∉ marks) (hr : StartsWith marks rest) (ht : StartsWith marks tail)
    (h : word ++ rest = other ++ tail) : word = other ∧ rest = tail := by
  induction word generalizing other with
  | nil =>
      cases other with
      | nil => exact ⟨rfl, h⟩
      | cons c other =>
          rw [List.nil_append] at h
          rw [h, List.cons_append, startsWith_cons] at hr
          exact absurd hr (ho c List.mem_cons_self)
  | cons c word ih =>
      cases other with
      | nil =>
          rw [List.nil_append] at h
          rw [← h, List.cons_append, startsWith_cons] at ht
          exact absurd ht (hw c List.mem_cons_self)
      | cons d other =>
          rw [List.cons_append, List.cons_append] at h
          obtain ⟨rfl, hrest⟩ := List.cons.inj h
          have hw := (List.forall_mem_cons.mp hw).2
          have ho := (List.forall_mem_cons.mp ho).2
          obtain ⟨rfl, rfl⟩ := ih hw ho hrest
          exact ⟨rfl, rfl⟩

-- In front of one of the marks, what is written tells which of the two it is.
def TellsApart {α : Type} (write : α → List Char) (marks : List Char) (x y : α) : Prop :=
  ∀ rest tail, StartsWith marks rest → StartsWith marks tail →
    write x ++ rest = write y ++ tail → x = y ∧ rest = tail

-- A row of pieces that end in front of the inner marks ends in front of the outer ones: the mark
-- that parts the pieces is an inner one, but no outer one.
theorem tellsApart_intercalate {α : Type} {write : α → List Char} {mark : Char}
    {between inner outer : List Char} (hinner : mark :: outer ⊆ inner) (houter : mark ∉ outer)
    {xs ys : List α} (hxs : xs ≠ []) (hys : ys ≠ [])
    (hpieces : ∀ x ∈ xs, ∀ y ∈ ys, TellsApart write inner x y) :
    TellsApart (fun row => (mark :: between).intercalate (row.map write)) outer xs ys := by
  have hsub : outer ⊆ inner := List.subset_of_cons_subset hinner
  have hmark : ∀ more, StartsWith inner (mark :: more) := fun more =>
    startsWith_cons.mpr (hinner List.mem_cons_self)
  intro rest tail hr ht h
  induction xs generalizing ys with
  | nil => exact absurd rfl hxs
  | cons x xs ih =>
      obtain ⟨y, ys, rfl⟩ := List.exists_cons_of_ne_nil hys
      have hfirst := hpieces x List.mem_cons_self y List.mem_cons_self
      simp only [List.map_cons] at h
      by_cases hx : xs = [] <;> by_cases hy : ys = []
      · subst hx hy
        rw [List.map_nil, List.intercalate_singleton, List.intercalate_singleton] at h
        obtain ⟨rfl, rfl⟩ := hfirst rest tail (hr.mono hsub) (ht.mono hsub) h
        exact ⟨rfl, rfl⟩
      · subst hx
        rw [List.map_nil, List.intercalate_singleton,
          List.intercalate_cons_of_ne_nil (by simpa using hy), List.append_assoc,
          List.append_assoc] at h
        obtain ⟨-, rfl⟩ := hfirst _ _ (hr.mono hsub) (hmark _) h
        exact absurd (startsWith_cons.mp hr) houter
      · subst hy
        rw [List.map_nil, List.intercalate_singleton,
          List.intercalate_cons_of_ne_nil (by simpa using hx), List.append_assoc,
          List.append_assoc] at h
        obtain ⟨-, rfl⟩ := hfirst _ _ (hmark _) (ht.mono hsub) h
        exact absurd (startsWith_cons.mp ht) houter
      · rw [List.intercalate_cons_of_ne_nil (by simpa using hx),
          List.intercalate_cons_of_ne_nil (by simpa using hy)] at h
        simp only [List.append_assoc] at h
        obtain ⟨rfl, hrest⟩ := hfirst _ _ (hmark _) (hmark _) h
        have hlater := fun x hx y hy =>
          hpieces x (List.mem_cons_of_mem _ hx) y (List.mem_cons_of_mem _ hy)
        obtain ⟨rfl, rfl⟩ := ih hx hy hlater ((List.append_right_inj (mark :: between)).mp hrest)
        exact ⟨rfl, rfl⟩

end Text

namespace Ty

open Text

-- The characters that end a name, and the one between a namespace and a name.
def signs : List Char := ['.', ',', ' ', '<', '>', '"']

-- An identifier of any alphabet.
def IsIdentifier (name : String) : Prop := name ≠ "" ∧ ∀ c ∈ name.toList, c ∉ signs

instance (name : String) : Decidable (IsIdentifier name) :=
  have := List.decidableBAll (· ∉ signs) name.toList
  inferInstanceAs (Decidable (_ ∧ _))

-- The identifiers that need no quotes as keys are among them.
theorem isIdentifier_of_plain {name : String} (h : TypeScript.isIdentifier name) :
    IsIdentifier name := by
  have hsigns : signs.all (!TypeScript.isIdentifierPart ·) := by decide
  refine ⟨?_, fun c hc hm => ?_⟩
  · rintro rfl
    exact absurd h (by decide)
  · have hpart := TypeScript.isIdentifierPart_of_mem h c hc
    simpa [hpart] using List.all_eq_true.mp hsigns c hm

-- The names that stand for types of their own.
def reserved : List String := ["string", "null", "never", "unknown"]

theorem isIdentifier_reserved : ∀ word ∈ reserved, IsIdentifier word := by decide

-- Names are identifiers, and bare names are not reserved. Literals are free.
inductive IsNamed : Ty → Prop
  | library {name : String} {args : List Ty} (hname : IsIdentifier name)
      (hargs : ∀ arg ∈ args, IsNamed arg) : IsNamed (library name args)
  | named {name : String} {args : List Ty} (hname : IsIdentifier name) (hfree : name ∉ reserved)
      (hargs : ∀ arg ∈ args, IsNamed arg) : IsNamed (named name args)
  | union {members : List Ty} (hmembers : ∀ member ∈ members, IsNamed member) :
      IsNamed (union members)
  | literal (text : String) : IsNamed (literal text)
  | string : IsNamed .string
  | null : IsNamed .null
  | never : IsNamed .never
  | unknown : IsNamed .unknown

theorem IsNamed.of_mem_alternatives {ty member : Ty} (h : ty.IsNamed)
    (hm : member ∈ ty.alternatives) : member.IsNamed := by
  cases h with
  | union hmembers => exact hmembers member hm
  | _ =>
      obtain rfl := List.mem_singleton.mp hm
      constructor <;> assumption

theorem isNamed_ofAlternatives {members : List Ty} (h : ∀ member ∈ members, member.IsNamed) :
    (ofAlternatives members).IsNamed := by
  match members with
  | [] => exact .union h
  | [ty] => exact h ty (List.mem_singleton_self ty)
  | _ :: _ :: _ => exact .union h

theorem IsNamed.normal {ty : Ty} (h : ty.IsNamed) : ty.normal.IsNamed := by
  induction h with
  | library hname _ ih =>
      rw [normal_library]
      exact .library hname (List.forall_mem_map.mpr ih)
  | named hname hfree _ ih =>
      rw [normal_named]
      exact .named hname hfree (List.forall_mem_map.mpr ih)
  | @union members _ ih =>
      by_cases hm : members = []
      · rw [hm]
        exact .never
      · rw [normal_union hm]
        apply isNamed_ofAlternatives
        intro alternative ha
        obtain ⟨member, hmember, ha⟩ := List.mem_flatMap.mp ha
        exact (List.forall_mem_map.mpr ih member hmember).of_mem_alternatives ha
  | literal text => exact .literal text
  | string => exact .string
  | null => exact .null
  | never => exact .never
  | unknown => exact .unknown

-- The word that a type starts with, if it is no literal and no union, and what the word is
-- applied to.
def worded? (spaceName : String) : Ty → Option (String × List Ty)
  | .library name args => some (qualified spaceName name, args)
  | .named name args => some (name, args)
  | .string => some ("string", [])
  | .null => some ("null", [])
  | .never => some ("never", [])
  | .unknown => some ("unknown", [])
  | .literal _ | .union _ => none

-- The type of a word. Only a name under a namespace has a dot.
def ofWord (spaceName word : String) (args : List Ty) : Ty :=
  if '.' ∈ word.toList then .library (String.ofList (word.toList.drop (spaceName.length + 1))) args
  else if word = "string" then .string
  else if word = "null" then .null
  else if word = "never" then .never
  else if word = "unknown" then .unknown
  else .named word args

variable {spaceName : String}

theorem ofWord_of_worded? (hspace : IsIdentifier spaceName) {ty : Ty} (hty : ty.IsNamed)
    {word : String} {args : List Ty} (h : ty.worded? spaceName = some (word, args)) :
    ofWord spaceName word args = ty := by
  cases hty with
  | @library name args =>
      cases h
      have hdrop : (qualified spaceName name).toList.drop (spaceName.length + 1) = name.toList := by
        rw [toList_qualified hspace.1, ← String.length_toList, List.drop_append]
        simp
      rw [ofWord, if_pos (by simp [toList_qualified hspace.1]), hdrop, String.ofList_toList]
  | named hname hfree =>
      cases h
      have hdot : '.' ∉ word.toList := fun hc => hname.2 _ hc (by decide)
      simp only [reserved, List.mem_cons, List.not_mem_nil, or_false, not_or] at hfree
      simp [ofWord, hdot, hfree]
  | literal text => cases h
  | union hmembers => cases h
  | _ =>
      cases h
      rfl

def chars (spaceName : String) (ty : Ty) : List Char := (ty.render spaceName).toList

-- What stands behind a type, behind a member of a union and behind a word, if anything does.
def tyEnds : List Char := [',', '>']

def memberEnds : List Char := ' ' :: tyEnds

def wordEnds : List Char := '<' :: '"' :: memberEnds

theorem notMem_wordEnds (hspace : IsIdentifier spaceName) {ty : Ty} (hty : ty.IsNamed)
    {word : String} {args : List Ty} (h : ty.worded? spaceName = some (word, args)) :
    ∀ c ∈ word.toList, c ∉ wordEnds := by
  have hsub : wordEnds ⊆ signs := by decide
  have hfree : ∀ {name : String}, IsIdentifier name → ∀ c ∈ name.toList, c ∉ wordEnds :=
    fun hname c hc hm => hname.2 c hc (hsub hm)
  cases hty with
  | library hname =>
      cases h
      intro c hc
      rw [toList_qualified hspace.1, List.mem_append, List.mem_cons] at hc
      rcases hc with hc | rfl | hc
      · exact hfree hspace c hc
      · decide
      · exact hfree hname c hc
  | named hname =>
      cases h
      exact hfree hname
  | literal text => cases h
  | union hmembers => cases h
  | _ =>
      cases h
      exact hfree (isIdentifier_reserved _ (by decide))

-- What stands behind the word of a type.
def argumentText (spaceName : String) (args : List Ty) : List Char :=
  if args = [] then []
  else '<' :: [',', ' '].intercalate (args.map (chars spaceName)) ++ ['>']

theorem toList_applied (name : String) (args : List Ty) :
    (applied name (args.map (render spaceName))).toList =
      name.toList ++ argumentText spaceName args := by
  have hchars : chars spaceName = String.toList ∘ render spaceName := rfl
  unfold applied argumentText
  cases args with
  | nil => simp
  | cons first rest => simp [String.toList_intercalate, hchars]

theorem startsWith_argumentText (args : List Ty) {rest : List Char}
    (hr : StartsWith memberEnds rest) :
    StartsWith wordEnds (argumentText spaceName args ++ rest) := by
  unfold argumentText
  split
  · exact hr.mono (by decide)
  · exact startsWith_cons.mpr (by decide)

theorem chars_of_worded? {ty : Ty} {word : String} {args : List Ty}
    (h : ty.worded? spaceName = some (word, args)) :
    ty.chars spaceName = word.toList ++ argumentText spaceName args := by
  rw [← toList_applied, chars, String.toList_inj]
  cases ty with
  | library name args =>
      cases h
      rw [render_library]
  | named name args =>
      cases h
      rw [render_named]
  | literal text => cases h
  | union members => cases h
  | _ =>
      cases h
      rfl

theorem IsNormal.of_worded? {ty : Ty} (hty : ty.IsNormal) {word : String} {args : List Ty}
    (h : ty.worded? spaceName = some (word, args)) : ∀ arg ∈ args, arg.IsNormal := by
  cases hty with
  | library hargs =>
      cases h
      exact hargs
  | named hargs =>
      cases h
      exact hargs
  | literal text => cases h
  | union htwo hflat hmembers => cases h
  | _ =>
      cases h
      exact List.forall_mem_nil _

theorem IsNamed.of_worded? {ty : Ty} (hty : ty.IsNamed) {word : String} {args : List Ty}
    (h : ty.worded? spaceName = some (word, args)) : ∀ arg ∈ args, arg.IsNamed := by
  cases hty with
  | library _ hargs =>
      cases h
      exact hargs
  | named _ _ hargs =>
      cases h
      exact hargs
  | literal text => cases h
  | union hmembers => cases h
  | _ =>
      cases h
      exact List.forall_mem_nil _

theorem exists_literal {ty : Ty} (h : ty.worded? spaceName = none) (hu : ¬ty.IsUnion) :
    ∃ text, ty = literal text := by
  cases ty with
  | literal text => exact ⟨text, rfl⟩
  | union members => exact absurd ⟨members, rfl⟩ hu
  | _ => cases h

-- The type is known where a member of a union ends.
def Ends (spaceName : String) (ty : Ty) : Prop :=
  ∀ other : Ty, other.IsNormal → other.IsNamed → ¬other.IsUnion →
    TellsApart (chars spaceName) memberEnds ty other

-- If all members of a union are known where they end, the union is known where it ends.
theorem tellsApart_chars {first second : Ty} (hfirst : first.IsNormal) (hsecond : second.IsNormal)
    (hnamed : second.IsNamed) (hends : ∀ member ∈ first.alternatives, member.Ends spaceName) :
    TellsApart (chars spaceName) tyEnds first second := by
  have hmembers : ∀ member ∈ first.alternatives, ∀ other ∈ second.alternatives,
      TellsApart (chars spaceName) memberEnds member other := by
    intro member hm other ho
    obtain ⟨hn, hu⟩ := hsecond.of_mem_alternatives ho
    exact hends member hm other hn (hnamed.of_mem_alternatives ho) hu
  have hchars : ∀ {ty : Ty}, ty.IsNormal →
      [' ', '|', ' '].intercalate (ty.alternatives.map (chars spaceName)) = ty.chars spaceName := by
    intro ty hty
    rw [chars, ← render_alternatives spaceName hty, String.toList_intercalate, List.map_map]
    rfl
  intro rest tail hr ht h
  rw [← hchars hfirst, ← hchars hsecond] at h
  obtain ⟨halternatives, rfl⟩ := tellsApart_intercalate (List.Subset.refl _) (by decide)
    hfirst.alternatives_ne_nil hsecond.alternatives_ne_nil hmembers rest tail hr ht h
  refine ⟨?_, rfl⟩
  rw [← hfirst.ofAlternatives_alternatives, halternatives, hsecond.ofAlternatives_alternatives]

-- Rows of arguments end with their brackets.
theorem tellsApart_argumentText {first second : List Ty}
    (hargs : ∀ arg ∈ first, ∀ other ∈ second, TellsApart (chars spaceName) tyEnds arg other) :
    TellsApart (argumentText spaceName) memberEnds first second := by
  have hopen : ∀ more, ¬StartsWith memberEnds ('<' :: more) := fun more hs =>
    absurd (startsWith_cons.mp hs) (by decide)
  have hclose : ∀ more, StartsWith ['>'] ('>' :: more) := fun more =>
    startsWith_cons.mpr (List.mem_singleton_self _)
  intro rest tail hr ht h
  unfold argumentText at h
  by_cases hf : first = [] <;> by_cases hs : second = []
  · rw [if_pos hf, if_pos hs] at h
    exact ⟨hf.trans hs.symm, h⟩
  · rw [if_pos hf, if_neg hs, List.nil_append] at h
    rw [h] at hr
    exact absurd hr (hopen _)
  · rw [if_neg hf, if_pos hs, List.nil_append] at h
    rw [← h] at ht
    exact absurd ht (hopen _)
  · rw [if_neg hf, if_neg hs] at h
    simp only [List.cons_append, List.append_assoc, List.cons.injEq, true_and] at h
    obtain ⟨rfl, hrest⟩ := tellsApart_intercalate (List.Subset.refl _) (by decide) hf hs hargs _ _
      (hclose rest) (hclose tail) h
    exact ⟨rfl, (List.cons.inj hrest).2⟩

-- No word starts like a literal.
theorem chars_append_ne_quote (hspace : IsIdentifier spaceName) {ty : Ty} (hty : ty.IsNamed)
    {word : String} {args : List Ty} (hw : ty.worded? spaceName = some (word, args))
    {rest : List Char} (hr : StartsWith memberEnds rest) (quoted : List Char) :
    ty.chars spaceName ++ rest ≠ '"' :: quoted := by
  intro h
  rw [chars_of_worded? hw, List.append_assoc] at h
  have hquote : StartsWith wordEnds ('"' :: quoted) := startsWith_cons.mpr (by decide)
  have hnil : ∀ c ∈ ([] : List Char), c ∉ wordEnds := List.forall_mem_nil _
  obtain ⟨-, htext⟩ := word_append_inj (notMem_wordEnds hspace hty hw) hnil
    (startsWith_argumentText args hr) hquote h
  unfold argumentText at htext
  split at htext
  · rw [List.nil_append] at htext
    rw [htext, startsWith_cons] at hr
    exact absurd hr (by decide)
  · cases htext

theorem ends_literal (hspace : IsIdentifier spaceName) (text : String) :
    (literal text).Ends spaceName := by
  intro other _ hnamed hu rest tail _ ht h
  rw [chars, toList_render_literal] at h
  cases ho : other.worded? spaceName with
  | none =>
      obtain ⟨second, rfl⟩ := exists_literal ho hu
      rw [chars, toList_render_literal] at h
      obtain ⟨rfl, rfl⟩ := Json.quoteChars_append_inj h
      exact ⟨rfl, rfl⟩
  | some found => exact absurd h.symm (chars_append_ne_quote hspace hnamed ho ht _)

theorem ends_of_worded? (hspace : IsIdentifier spaceName) {ty : Ty} (hty : ty.IsNamed)
    {word : String} {args : List Ty} (hw : ty.worded? spaceName = some (word, args))
    (hargs : ∀ arg ∈ args, arg.IsNormal ∧ ∀ member ∈ arg.alternatives, member.Ends spaceName) :
    ty.Ends spaceName := by
  intro other hnormal hnamed hu rest tail hr ht h
  cases ho : other.worded? spaceName with
  | none =>
      obtain ⟨text, rfl⟩ := exists_literal ho hu
      have hquote : (literal text).chars spaceName = Json.quoteChars text.toList :=
        toList_render_literal spaceName text
      rw [hquote] at h
      exact absurd h (chars_append_ne_quote hspace hty hw hr _)
  | some found =>
      obtain ⟨otherWord, otherArgs⟩ := found
      rw [chars_of_worded? hw, chars_of_worded? ho, List.append_assoc, List.append_assoc] at h
      obtain ⟨hword, htext⟩ := word_append_inj (notMem_wordEnds hspace hty hw)
        (notMem_wordEnds hspace hnamed ho) (startsWith_argumentText args hr)
        (startsWith_argumentText otherArgs ht) h
      have hapart : ∀ arg ∈ args, ∀ other ∈ otherArgs,
          TellsApart (chars spaceName) tyEnds arg other := fun arg harg other hother =>
        tellsApart_chars (hargs arg harg).1 (hnormal.of_worded? ho other hother)
          (hnamed.of_worded? ho other hother) (hargs arg harg).2
      obtain ⟨rfl, rfl⟩ := tellsApart_argumentText hapart rest tail hr ht htext
      obtain rfl := String.toList_inj.mp hword
      exact ⟨(ofWord_of_worded? hspace hty hw).symm.trans (ofWord_of_worded? hspace hnamed ho), rfl⟩

-- Induction on the first type: its arguments and members are known where they end.
theorem IsNormal.ends (hspace : IsIdentifier spaceName) {ty : Ty} (hnormal : ty.IsNormal)
    (hnamed : ty.IsNamed) : ∀ member ∈ ty.alternatives, member.Ends spaceName := by
  induction hnormal with
  | @library name args hargs ih =>
      have hword : (Ty.library name args).worded? spaceName =
          some (qualified spaceName name, args) := rfl
      have hn := hnamed.of_worded? hword
      refine List.forall_mem_singleton.mpr (ends_of_worded? hspace hnamed hword ?_)
      exact fun arg harg => ⟨hargs arg harg, ih arg harg (hn arg harg)⟩
  | @named name args hargs ih =>
      have hword : (Ty.named name args).worded? spaceName = some (name, args) := rfl
      have hn := hnamed.of_worded? hword
      refine List.forall_mem_singleton.mpr (ends_of_worded? hspace hnamed hword ?_)
      exact fun arg harg => ⟨hargs arg harg, ih arg harg (hn arg harg)⟩
  | union htwo hflat hmembers ih =>
      intro member hm
      apply ih member hm (hnamed.of_mem_alternatives hm)
      rw [alternatives_of_not_isUnion (hflat member hm)]
      exact List.mem_singleton_self member
  | literal text => exact List.forall_mem_singleton.mpr (ends_literal hspace text)
  | _ =>
      exact List.forall_mem_singleton.mpr
        (ends_of_worded? hspace hnamed rfl (List.forall_mem_nil _))

-- Types have one text exactly if they have one normal form.
theorem render_eq_render_iff (hspace : IsIdentifier spaceName) {first second : Ty}
    (hfirst : first.IsNamed) (hsecond : second.IsNamed) :
    first.render spaceName = second.render spaceName ↔ first.normal = second.normal := by
  constructor
  · intro h
    have hends := first.isNormal_normal.ends hspace hfirst.normal
    have hchars : first.normal.chars spaceName ++ [] = second.normal.chars spaceName ++ [] := by
      rw [chars, chars, render_normal, render_normal, h]
    exact (tellsApart_chars first.isNormal_normal second.isNormal_normal hsecond.normal hends [] []
      (startsWith_nil _) (startsWith_nil _) hchars).1
  · intro h
    rw [← render_normal spaceName first, ← render_normal spaceName second, h]

-- Two spellings of one union, with a literal that looks like a union itself.
def looseUnion : Ty :=
  .union [.union [], .union [.literal "a\" | \"b"],
    .library "LinkField" [.union [.union [.named "Page" [], .string], .null]]]

def tightUnion : Ty :=
  .union [.never, .literal "a\" | \"b",
    .library "LinkField" [.union [.named "Page" [], .string, .null]]]

theorem normal_looseUnion : IsIdentifier "prismic" ∧ looseUnion.IsNamed ∧ tightUnion.IsNamed ∧
    looseUnion.render "prismic" = tightUnion.render "prismic" ∧
    looseUnion.normal = tightUnion.normal := by
  have hspace : IsIdentifier "prismic" := isIdentifier_of_plain (by decide)
  have hpage : (named "Page" []).IsNamed := .named (by decide) (by decide) (List.forall_mem_nil _)
  have hloose : looseUnion.IsNamed := by
    have harg : (union [.union [.named "Page" [], .string], .null]).IsNamed := by
      refine .union (List.forall_mem_cons.mpr ⟨.union ?_, ?_⟩)
      · simp [hpage, IsNamed.string]
      · simp [IsNamed.null]
    refine .union (List.forall_mem_cons.mpr ⟨.union (List.forall_mem_nil _), ?_⟩)
    refine List.forall_mem_cons.mpr ⟨.union (List.forall_mem_singleton.mpr (.literal _)), ?_⟩
    refine List.forall_mem_singleton.mpr (.library (by decide) ?_)
    exact List.forall_mem_singleton.mpr harg
  have htight : tightUnion.IsNamed := by
    have harg : (union [.named "Page" [], .string, .null]).IsNamed :=
      .union (by simp [hpage, IsNamed.string, IsNamed.null])
    have hlink : (library "LinkField" [.union [.named "Page" [], .string, .null]]).IsNamed :=
      .library (by decide) (List.forall_mem_singleton.mpr harg)
    exact .union (by simp [IsNamed.never, IsNamed.literal, hlink])
  have htext : looseUnion.render "prismic" = tightUnion.render "prismic" := by rfl
  exact ⟨hspace, hloose, htight, htext, (render_eq_render_iff hspace hloose htight).mp htext⟩

end Ty

end ContentTypes
