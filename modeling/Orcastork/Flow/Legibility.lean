import Orcastork.Flow.Definition
import Orcastork.Library.Delimited
import Orcastork.Library.Readable
import Orcastork.Scheduling.Completion

/-!
# What the text of a flow determines

Names that are free of the characters that delimit them can be read back from the text a
fingerprint digests (`Legible`). A class is named without its module, a capability without an id by
its class, and a condition with a class of its own by that class, so one name may stand for several.
Where what two flows name is told apart by the names (`ToldApart`), flows of one text list the same
operators and capabilities, in any order, and agree on what the text mentions (`Alike`).
-/

namespace Orcastork

variable {P C O : Type}

/-! ### Conditions by what they say -/

namespace CompletionCondition

mutual

/-- A condition without what the conditions of classes of their own in it are called. -/
def unnamed : CompletionCondition P → CompletionCondition P
  | .typePresent dataPointType => .typePresent dataPointType
  | .allOf children => .allOf (unnamedAll children)
  | .anyOf children => .anyOf (unnamedAll children)
  | .custom condition => .custom ⟨none, "", "", condition.isSatisfied⟩

def unnamedAll : List (CompletionCondition P) → List (CompletionCondition P)
  | [] => []
  | child :: children => unnamed child :: unnamedAll children

end

variable {declarations : Declarations P C O} {present : Finset P}

mutual

/-- What a condition is called does not bear on whether it is satisfied. -/
theorem isSatisfied_unnamed : ∀ condition : CompletionCondition P,
  condition.unnamed.isSatisfied declarations present = condition.isSatisfied declarations present
  | .typePresent _ => rfl
  | .custom _ => rfl
  | .allOf children => by
      rw [unnamed, isSatisfied, isSatisfied, (satisfied_unnamed children).1]
  | .anyOf children => by
      rw [unnamed, isSatisfied, isSatisfied, (satisfied_unnamed children).2]

theorem satisfied_unnamed : ∀ children : List (CompletionCondition P),
  allSatisfied declarations present (unnamedAll children)
      = allSatisfied declarations present children
    ∧ anySatisfied declarations present (unnamedAll children)
      = anySatisfied declarations present children
  | [] => ⟨rfl, rfl⟩
  | child :: children => by
      obtain ⟨hall, hany⟩ := satisfied_unnamed children
      rw [unnamedAll, allSatisfied, allSatisfied, anySatisfied, anySatisfied, hall, hany,
        isSatisfied_unnamed child]
      exact ⟨rfl, rfl⟩

end

variable [DecidableEq P]

mutual

/-- Nor does it bear on the classes the condition keys on. -/
theorem referencedTypes_unnamed : ∀ condition : CompletionCondition P,
  condition.unnamed.referencedTypes = condition.referencedTypes
  | .typePresent _ => rfl
  | .custom _ => rfl
  | .allOf children => by
      rw [unnamed, referencedTypes, referencedTypes, referencedTypesOfAll_unnamed children]
  | .anyOf children => by
      rw [unnamed, referencedTypes, referencedTypes, referencedTypesOfAll_unnamed children]

theorem referencedTypesOfAll_unnamed : ∀ children : List (CompletionCondition P),
  referencedTypesOfAll (unnamedAll children) = referencedTypesOfAll children
  | [] => rfl
  | child :: children => by
      rw [unnamedAll, referencedTypesOfAll, referencedTypesOfAll, referencedTypes_unnamed child,
        referencedTypesOfAll_unnamed children]

end

end CompletionCondition

namespace Classes

variable (classes : Classes P C O)

/-- The characters that delimit the names in a text. -/
def delimiters : List Char := [' ', ',', '(', ')', ']', '\n']

/-- A text that can be told from what stands around it. -/
def Plain (text : String) : Prop := text ≠ "" ∧ ∀ c ∈ text.toList, c ∉ delimiters

/-- The names in the descriptions of some nodes of a condition are plain, and none says that there
is no condition. -/
structure LegibleNodes (nodes : List (CompletionCondition P)) : Prop where
  qualname : ∀ dataPointType, .typePresent dataPointType ∈ nodes →
    Plain (classes.qualname dataPointType)
  text : ∀ condition, .custom condition ∈ nodes → Plain condition.text
  text_ne : ∀ condition, .custom condition ∈ nodes → condition.text ≠ "None"

/-- What the nodes of two conditions name alike is the same class, or a condition that says the
same. -/
structure NodesToldApart (nodes nodes' : List (CompletionCondition P)) : Prop where
  dataPoints : ∀ dataPointType dataPointType', .typePresent dataPointType ∈ nodes →
    .typePresent dataPointType' ∈ nodes' →
    classes.qualname dataPointType = classes.qualname dataPointType' →
    dataPointType = dataPointType'
  conditions : ∀ condition condition', .custom condition ∈ nodes → .custom condition' ∈ nodes' →
    condition.text = condition'.text → condition.isSatisfied = condition'.isSatisfied

variable {classes} {nodes nodes' : List (CompletionCondition P)}

theorem LegibleNodes.mono (h : classes.LegibleNodes nodes') (hsub : nodes ⊆ nodes') :
  classes.LegibleNodes nodes
  := by
  constructor
  · intro dataPointType hmem
    apply h.qualname dataPointType (hsub hmem)
  · intro condition hmem
    apply h.text condition (hsub hmem)
  · intro condition hmem
    apply h.text_ne condition (hsub hmem)

theorem NodesToldApart.mono {further further' : List (CompletionCondition P)}
    (h : classes.NodesToldApart further further') (hsub : nodes ⊆ further)
    (hsub' : nodes' ⊆ further') :
  classes.NodesToldApart nodes nodes'
  := by
  constructor
  · intro dataPointType dataPointType' hmem hmem'
    apply h.dataPoints dataPointType dataPointType' (hsub hmem) (hsub' hmem')
  · intro condition condition' hmem hmem'
    apply h.conditions condition condition' (hsub hmem) (hsub' hmem')

theorem Plain.not_mem {text : String} (h : Plain text) {c : Char} (hc : c ∈ delimiters) :
  c ∉ text.toList
  := fun hmem => h.2 c hmem hc

theorem plain_of_all (text : String) (hne : text ≠ "")
    (hall : text.toList.all (fun c => c ∉ delimiters) = true) :
  Plain text
  := ⟨hne, fun c hc => of_decide_eq_true (List.all_eq_true.mp hall c hc)⟩

theorem Plain.toList_ne_nil {text : String} (h : Plain text) :
  text.toList ≠ []
  := fun hnil => h.1 (String.toList_injective hnil)

/-! ### Lists of names -/

/-- Plain names joined by commas are determined. -/
theorem names_inj {names names' : List String} (h : ∀ name ∈ names, Plain name)
    (h' : ∀ name ∈ names', Plain name)
    (hjoined : ",".intercalate names = ",".intercalate names') :
  names = names'
  := by
  have hempty : ∀ {names : List String}, (∀ name ∈ names, Plain name) →
      ",".intercalate names = "" → names = [] := by
    intro names h hjoined
    cases names with
    | nil => rfl
    | cons name names =>
        have hchars := congrArg String.toList hjoined
        rw [String.toList_intercalate, List.map_cons] at hchars
        have hname := (h name List.mem_cons_self).toList_ne_nil
        cases names with
        | nil => exact absurd (by simpa using hchars) hname
        | cons next names =>
            rw [List.map_cons, List.intercalate_cons_cons, String.toList_empty,
              List.append_eq_nil_iff, List.append_eq_nil_iff] at hchars
            exact absurd hchars.1.1 hname
  by_cases hnames : names = []
  · subst hnames
    exact (hempty h' hjoined.symm).symm
  by_cases hnames' : names' = []
  · subst hnames'
    exact hempty h hjoined
  have hcomma : ∀ {names : List String}, (∀ name ∈ names, Plain name) →
      ∀ word ∈ names.map String.toList, ',' ∉ word := by
    intro names h word hword
    obtain ⟨name, hname, rfl⟩ := List.mem_map.mp hword
    exact (h name hname).not_mem (by decide)
  have hchars := congrArg String.toList hjoined
  rw [String.toList_intercalate, String.toList_intercalate] at hchars
  have hwords := Delimited.intercalate_inj (hcomma h) (hcomma h') (by simpa using hnames)
    (by simpa using hnames') hchars
  exact List.map_injective_iff.mpr (fun _ _ => String.toList_injective) hwords

/-- The sorted names of a set determine it, if they are plain and tell it apart. -/
theorem sortedNames_inj {α : Type} {name : α → String} {s t : Finset α}
    (hs : ∀ a ∈ s, Plain (name a)) (ht : ∀ b ∈ t, Plain (name b))
    (hname : ∀ a ∈ s, ∀ b ∈ t, name a = name b → a = b)
    (h : ",".intercalate ((s.val.map name).sort (· ≤ ·))
      = ",".intercalate ((t.val.map name).sort (· ≤ ·))) :
  s = t
  := by
  have hall : ∀ (u : Finset α), (∀ a ∈ u, Plain (name a)) →
      ∀ text ∈ (u.val.map name).sort (· ≤ ·), Plain text := by
    intro u hplain text htext
    rw [Multiset.mem_sort, Multiset.mem_map] at htext
    obtain ⟨a, ha, rfl⟩ := htext
    exact hplain a ha
  have hsorted := congrArg (fun names : List String => (names : Multiset String))
    (names_inj (hall s hs) (hall t ht) h)
  simp only [Multiset.sort_eq] at hsorted
  ext a
  constructor
  · intro ha
    have hmem : name a ∈ s.val.map name := Multiset.mem_map_of_mem name ha
    rw [hsorted] at hmem
    obtain ⟨b, hb, hsame⟩ := Multiset.mem_map.mp hmem
    rw [hname a ha b hb hsame.symm]
    exact hb
  · intro ha
    have hmem : name a ∈ t.val.map name := Multiset.mem_map_of_mem name ha
    rw [← hsorted] at hmem
    obtain ⟨b, hb, hsame⟩ := Multiset.mem_map.mp hmem
    rw [← hname b hb a ha hsame]
    exact hb

/-- Joined names contain no delimiter but the comma. -/
theorem not_mem_sortedNames {α : Type} {name : α → String} {s : Finset α}
    (hplain : ∀ a ∈ s, Plain (name a)) {c : Char} (hc : c ∈ delimiters) (hcomma : c ≠ ',') :
  c ∉ (",".intercalate ((s.val.map name).sort (· ≤ ·))).toList
  := by
  intro hmem
  rw [String.toList_intercalate] at hmem
  obtain h | ⟨word, hword, h⟩ := Delimited.mem_intercalate hmem
  · exact hcomma h
  · obtain ⟨text, htext, rfl⟩ := List.mem_map.mp hword
    rw [Multiset.mem_sort, Multiset.mem_map] at htext
    obtain ⟨a, ha, rfl⟩ := htext
    exact (hplain a ha).not_mem hc h

/-- A field is cut off at the separator behind it, if it does not contain the first character
of the separator. -/
theorem cut {field field' : String} {rest rest' : List Char} (separator : String) {d : Char}
    (hseparator : separator.toList.head? = some d) (h : d ∉ field.toList)
    (h' : d ∉ field'.toList)
    (htext : field.toList ++ (separator.toList ++ rest)
      = field'.toList ++ (separator.toList ++ rest')) :
  field = field' ∧ rest = rest'
  := by
  obtain ⟨tail, htail⟩ := List.head?_eq_some_iff.mp hseparator
  rw [htail, List.cons_append, List.cons_append] at htext
  obtain ⟨hfield, hrest⟩ := Delimited.append_cons_inj h h' htext
  exact ⟨String.toList_injective hfield, List.append_cancel_left hrest⟩

/-! ### Conditions -/

/-- The name a description begins with. -/
def conditionName : CompletionCondition P → String
  | .typePresent _ => "TypePresent"
  | .allOf _ => "AllOf"
  | .anyOf _ => "AnyOf"
  | .custom condition => condition.text

variable (classes) in
/-- What a description holds behind the name. -/
def conditionArguments : CompletionCondition P → List Char
  | .typePresent dataPointType => "(".toList ++ ((classes.qualname dataPointType).toList ++ [')'])
  | .allOf children | .anyOf children =>
    "(".toList ++ ((", ".intercalate (classes.describeAll children)).toList ++ [')'])
  | .custom _ => []

/-- A description is a name and what is behind it. -/
theorem toList_describeCondition (condition : CompletionCondition P) :
  (classes.describeCondition condition).toList
    = (conditionName condition).toList ++ classes.conditionArguments condition
  := by
  cases condition with
  | typePresent dataPointType =>
      simp [describeCondition, conditionName, conditionArguments]
  | allOf children => simp [describeCondition, conditionName, conditionArguments]
  | anyOf children => simp [describeCondition, conditionName, conditionArguments]
  | custom _ => simp [describeCondition, conditionName, conditionArguments]

/-- A text that goes on as behind a description. -/
def Ends (rest : List Char) : Prop := ∀ c ∈ rest.head?, c = ',' ∨ c = ')'

theorem ends_nil :
  Ends []
  := nofun

/-- The name a description begins with is plain. -/
theorem LegibleNodes.plain_conditionName {condition : CompletionCondition P}
    (h : classes.LegibleNodes condition.nodes) :
  Plain (conditionName condition)
  := by
  cases condition with
  | typePresent dataPointType =>
      change Plain "TypePresent"
      exact plain_of_all _ (by decide) (by decide)
  | allOf children =>
      change Plain "AllOf"
      exact plain_of_all _ (by decide) (by decide)
  | anyOf children =>
      change Plain "AnyOf"
      exact plain_of_all _ (by decide) (by decide)
  | custom condition => exact h.text condition List.mem_cons_self

/-- Behind the name of a description no plain character follows. -/
theorem endsAt_conditionArguments (condition : CompletionCondition P) {rest : List Char}
    (hrest : Ends rest) :
  Readable.EndsAt (fun c => c ∉ delimiters) (classes.conditionArguments condition ++ rest)
  := by
  cases condition with
  | custom _ =>
      intro c hc hplain
      obtain rfl | rfl := hrest c hc
      · exact hplain (by decide)
      · exact hplain (by decide)
  | typePresent dataPointType =>
      intro c hc hplain
      obtain rfl : '(' = c := Option.some.inj hc
      exact hplain (by decide)
  | allOf children =>
      intro c hc hplain
      obtain rfl : '(' = c := Option.some.inj hc
      exact hplain (by decide)
  | anyOf children =>
      intro c hc hplain
      obtain rfl : '(' = c := Option.some.inj hc
      exact hplain (by decide)

/-- The name and the arguments of a description are determined. -/
theorem LegibleNodes.describeCondition_split {condition condition' : CompletionCondition P}
    (h : classes.LegibleNodes condition.nodes) (h' : classes.LegibleNodes condition'.nodes)
    {rest rest' : List Char} (hrest : Ends rest) (hrest' : Ends rest')
    (htext : (classes.describeCondition condition).toList ++ rest
      = (classes.describeCondition condition').toList ++ rest') :
  conditionName condition = conditionName condition'
    ∧ classes.conditionArguments condition ++ rest = classes.conditionArguments condition' ++ rest'
  := by
  rw [toList_describeCondition, toList_describeCondition, List.append_assoc,
    List.append_assoc] at htext
  obtain ⟨hname, harguments⟩ := Readable.word_append_inj h.plain_conditionName.2
    h'.plain_conditionName.2 (endsAt_conditionArguments condition hrest)
    (endsAt_conditionArguments condition' hrest') htext
  exact ⟨String.toList_injective hname, harguments⟩

/-- Nothing that goes on as behind a description begins with a parenthesis. -/
theorem Ends.ne_paren {rest tail : List Char} (hrest : Ends rest) :
  rest ≠ '(' :: tail
  := by
  rintro rfl
  obtain h | h := hrest '(' rfl
  · exact absurd h (by decide)
  · exact absurd h (by decide)

/-- A class name between parentheses is determined. -/
theorem LegibleNodes.typePresent_inj {dataPointType dataPointType' : P} {rest rest' : List Char}
    (h : classes.LegibleNodes (CompletionCondition.typePresent dataPointType).nodes)
    (h' : classes.LegibleNodes (CompletionCondition.typePresent dataPointType').nodes)
    (hapart : classes.NodesToldApart (CompletionCondition.typePresent dataPointType).nodes
      (CompletionCondition.typePresent dataPointType').nodes)
    (harguments : classes.conditionArguments (.typePresent dataPointType) ++ rest
      = classes.conditionArguments (.typePresent dataPointType') ++ rest') :
  dataPointType = dataPointType' ∧ rest = rest'
  := by
  rw [conditionArguments, conditionArguments, List.append_assoc, List.append_assoc,
    List.append_assoc, List.append_assoc] at harguments
  obtain ⟨hname, hrest⟩ := Delimited.append_cons_inj
    ((h.qualname dataPointType List.mem_cons_self).not_mem (by decide))
    ((h'.qualname dataPointType' List.mem_cons_self).not_mem (by decide))
    (List.append_cancel_left harguments)
  exact ⟨hapart.dataPoints _ _ List.mem_cons_self List.mem_cons_self
    (String.toList_injective hname), hrest⟩

variable (classes) in
/-- What follows the first of some descriptions. -/
def furtherChildren : List (CompletionCondition P) → List Char
  | [] => []
  | child :: children =>
    ", ".toList ++ (", ".intercalate (classes.describeAll (child :: children))).toList

/-- Descriptions are the first one and what follows it. -/
theorem toList_describeAll_cons (child : CompletionCondition P)
    (children : List (CompletionCondition P)) :
  (", ".intercalate (classes.describeAll (child :: children))).toList
    = (classes.describeCondition child).toList ++ classes.furtherChildren children
  := by
  cases children with
  | nil => simp [describeAll, furtherChildren]
  | cons next children =>
      rw [describeAll, describeAll, String.intercalate_cons_cons, String.toList_append,
        String.toList_append, List.append_assoc, furtherChildren, describeAll]

theorem ends_furtherChildren (children : List (CompletionCondition P)) (rest : List Char) :
  Ends (classes.furtherChildren children ++ ')' :: rest)
  := by
  cases children with
  | nil =>
      intro c hc
      exact Or.inr (Option.some.inj hc).symm
  | cons child children =>
      intro c hc
      exact Or.inl (Option.some.inj hc).symm

/-- A description does not begin with a closing parenthesis. -/
theorem LegibleNodes.describeCondition_ne {condition : CompletionCondition P}
    (h : classes.LegibleNodes condition.nodes) {rest tail : List Char} :
  (classes.describeCondition condition).toList ++ rest ≠ ')' :: tail
  := by
  have hplain := h.plain_conditionName
  obtain ⟨c, name, hname⟩ := List.exists_cons_of_ne_nil hplain.toList_ne_nil
  intro htext
  rw [toList_describeCondition, hname, List.cons_append, List.cons_append,
    List.cons.injEq] at htext
  apply hplain.not_mem (c := ')') (by decide)
  rw [hname, htext.1]
  exact List.mem_cons_self

mutual

/-- What a condition says is determined by a text that its description begins. -/
theorem LegibleNodes.describeCondition_inj :
  ∀ {condition condition' : CompletionCondition P} {rest rest' : List Char},
  classes.LegibleNodes condition.nodes → classes.LegibleNodes condition'.nodes →
  classes.NodesToldApart condition.nodes condition'.nodes → Ends rest → Ends rest' →
  (classes.describeCondition condition).toList ++ rest
    = (classes.describeCondition condition').toList ++ rest' →
  condition.unnamed = condition'.unnamed ∧ rest = rest'
  | .typePresent dataPointType, condition', rest, rest', h, h', hapart, hrest, hrest', htext => by
      obtain ⟨hname, harguments⟩ := h.describeCondition_split h' hrest hrest' htext
      cases condition' with
      | typePresent dataPointType' =>
          obtain ⟨rfl, hsame⟩ := h.typePresent_inj h' hapart harguments
          exact ⟨rfl, hsame⟩
      | allOf children' => exact absurd hname (by decide : "TypePresent" ≠ "AllOf")
      | anyOf children' => exact absurd hname (by decide : "TypePresent" ≠ "AnyOf")
      | custom custom' => exact absurd harguments.symm hrest'.ne_paren
  | .allOf children, condition', rest, rest', h, h', hapart, hrest, hrest', htext => by
      obtain ⟨hname, harguments⟩ := h.describeCondition_split h' hrest hrest' htext
      cases condition' with
      | typePresent dataPointType' => exact absurd hname (by decide : "AllOf" ≠ "TypePresent")
      | allOf children' =>
          obtain ⟨hsame, hends⟩ := LegibleNodes.describeAll_inj (h.mono (List.subset_cons_self _ _))
            (h'.mono (List.subset_cons_self _ _))
            (hapart.mono (List.subset_cons_self _ _) (List.subset_cons_self _ _)) harguments
          rw [CompletionCondition.unnamed, CompletionCondition.unnamed, hsame]
          exact ⟨rfl, hends⟩
      | anyOf children' => exact absurd hname (by decide : "AllOf" ≠ "AnyOf")
      | custom custom' => exact absurd harguments.symm hrest'.ne_paren
  | .anyOf children, condition', rest, rest', h, h', hapart, hrest, hrest', htext => by
      obtain ⟨hname, harguments⟩ := h.describeCondition_split h' hrest hrest' htext
      cases condition' with
      | typePresent dataPointType' => exact absurd hname (by decide : "AnyOf" ≠ "TypePresent")
      | allOf children' => exact absurd hname (by decide : "AnyOf" ≠ "AllOf")
      | anyOf children' =>
          obtain ⟨hsame, hends⟩ := LegibleNodes.describeAll_inj (h.mono (List.subset_cons_self _ _))
            (h'.mono (List.subset_cons_self _ _))
            (hapart.mono (List.subset_cons_self _ _) (List.subset_cons_self _ _)) harguments
          rw [CompletionCondition.unnamed, CompletionCondition.unnamed, hsame]
          exact ⟨rfl, hends⟩
      | custom custom' => exact absurd harguments.symm hrest'.ne_paren
  | .custom custom, condition', rest, rest', h, h', hapart, hrest, hrest', htext => by
      obtain ⟨hname, harguments⟩ := h.describeCondition_split h' hrest hrest' htext
      cases condition' with
      | typePresent dataPointType' => exact absurd harguments hrest.ne_paren
      | allOf children' => exact absurd harguments hrest.ne_paren
      | anyOf children' => exact absurd harguments hrest.ne_paren
      | custom custom' =>
          rw [CompletionCondition.unnamed, CompletionCondition.unnamed,
            hapart.conditions custom custom' List.mem_cons_self List.mem_cons_self hname]
          exact ⟨rfl, harguments⟩

/-- What the children of a condition say is determined by the descriptions between parentheses. -/
theorem LegibleNodes.describeAll_inj :
  ∀ {children children' : List (CompletionCondition P)} {rest rest' : List Char},
  classes.LegibleNodes (CompletionCondition.nodesOfAll children) →
  classes.LegibleNodes (CompletionCondition.nodesOfAll children') →
  classes.NodesToldApart (CompletionCondition.nodesOfAll children)
    (CompletionCondition.nodesOfAll children') →
  "(".toList ++ ((", ".intercalate (classes.describeAll children)).toList ++ [')']) ++ rest
    = "(".toList ++ ((", ".intercalate (classes.describeAll children')).toList ++ [')']) ++ rest' →
  CompletionCondition.unnamedAll children = CompletionCondition.unnamedAll children' ∧ rest = rest'
  | children, children', rest, rest', h, h', hapart, htext => by
      rw [List.append_assoc, List.append_assoc, List.append_assoc, List.append_assoc] at htext
      exact LegibleNodes.describeMore_inj h h' hapart (List.append_cancel_left htext)

/-- What the children of a condition say is determined by the descriptions up to a parenthesis. -/
theorem LegibleNodes.describeMore_inj :
  ∀ {children children' : List (CompletionCondition P)} {rest rest' : List Char},
  classes.LegibleNodes (CompletionCondition.nodesOfAll children) →
  classes.LegibleNodes (CompletionCondition.nodesOfAll children') →
  classes.NodesToldApart (CompletionCondition.nodesOfAll children)
    (CompletionCondition.nodesOfAll children') →
  (", ".intercalate (classes.describeAll children)).toList ++ ')' :: rest
    = (", ".intercalate (classes.describeAll children')).toList ++ ')' :: rest' →
  CompletionCondition.unnamedAll children = CompletionCondition.unnamedAll children' ∧ rest = rest'
  | [], [], _, _, _, _, _, htext => ⟨rfl, (List.cons.inj htext).2⟩
  | [], child' :: children', _, _, _, h', _, htext => by
      rw [toList_describeAll_cons, List.append_assoc] at htext
      exact absurd htext.symm
        (LegibleNodes.describeCondition_ne (h'.mono (List.subset_append_left _ _)))
  | child :: children, [], _, _, h, _, _, htext => by
      rw [toList_describeAll_cons, List.append_assoc] at htext
      exact absurd htext
        (LegibleNodes.describeCondition_ne (h.mono (List.subset_append_left _ _)))
  | child :: children, child' :: children', _, _, h, h', hapart, htext => by
      rw [toList_describeAll_cons, toList_describeAll_cons, List.append_assoc,
        List.append_assoc] at htext
      obtain ⟨hchild, hmore⟩ := LegibleNodes.describeCondition_inj
        (h.mono (List.subset_append_left _ _)) (h'.mono (List.subset_append_left _ _))
        (hapart.mono (List.subset_append_left _ _) (List.subset_append_left _ _))
        (ends_furtherChildren children _) (ends_furtherChildren children' _) htext
      rw [CompletionCondition.unnamedAll, CompletionCondition.unnamedAll, hchild]
      cases children with
      | nil =>
          cases children' with
          | nil => exact ⟨rfl, (List.cons.inj hmore).2⟩
          | cons next' children' =>
              exact absurd (List.cons.inj hmore).1 (by decide : ')' ≠ ',')
      | cons next children =>
          cases children' with
          | nil => exact absurd (List.cons.inj hmore).1 (by decide : ',' ≠ ')')
          | cons next' children' =>
              rw [furtherChildren, furtherChildren, List.append_assoc, List.append_assoc] at hmore
              obtain ⟨hsame, hrest⟩ := LegibleNodes.describeMore_inj
                (h.mono (List.subset_append_right _ _)) (h'.mono (List.subset_append_right _ _))
                (hapart.mono (List.subset_append_right _ _) (List.subset_append_right _ _))
                (List.append_cancel_left hmore)
              rw [hsame]
              exact ⟨rfl, hrest⟩

end

mutual

/-- No description contains a line break. -/
theorem LegibleNodes.newline_not_mem :
  ∀ {condition : CompletionCondition P}, classes.LegibleNodes condition.nodes →
  '\n' ∉ (classes.describeCondition condition).toList
  | .typePresent dataPointType, h => by
      rw [describeCondition, String.toList_append, String.toList_append, List.mem_append,
        List.mem_append, not_or, not_or]
      exact ⟨⟨by decide, (h.qualname dataPointType List.mem_cons_self).not_mem (by decide)⟩,
        by decide⟩
  | .allOf children, h => by
      rw [describeCondition, String.toList_append, String.toList_append, List.mem_append,
        List.mem_append, not_or, not_or]
      exact ⟨⟨by decide, LegibleNodes.newline_not_mem_all
        (h.mono (List.subset_cons_self _ _))⟩, by decide⟩
  | .anyOf children, h => by
      rw [describeCondition, String.toList_append, String.toList_append, List.mem_append,
        List.mem_append, not_or, not_or]
      exact ⟨⟨by decide, LegibleNodes.newline_not_mem_all
        (h.mono (List.subset_cons_self _ _))⟩, by decide⟩
  | .custom condition, h => (h.text condition List.mem_cons_self).not_mem (by decide)

theorem LegibleNodes.newline_not_mem_all :
  ∀ {children : List (CompletionCondition P)},
  classes.LegibleNodes (CompletionCondition.nodesOfAll children) →
  '\n' ∉ (", ".intercalate (classes.describeAll children)).toList
  | [], _ => List.not_mem_nil
  | [child], h => by
      rw [toList_describeAll_cons, List.mem_append, not_or]
      exact ⟨LegibleNodes.newline_not_mem (h.mono (List.subset_append_left _ _)),
        List.not_mem_nil⟩
  | child :: next :: children, h => by
      rw [toList_describeAll_cons, List.mem_append, furtherChildren, List.mem_append, not_or,
        not_or]
      exact ⟨LegibleNodes.newline_not_mem (h.mono (List.subset_append_left _ _)), by decide,
        LegibleNodes.newline_not_mem_all (h.mono (List.subset_append_right _ _))⟩

end

end Classes

namespace FlowDefinition

/-! ### What the text of a flow names -/

section

variable (classes : Classes P C O) (flow flow' : FlowDefinition P C O)

/-- The nodes of the completion condition. -/
def conditionNodes : List (CompletionCondition P) :=
  match normalizeCompletion flow.completesWhen with
  | none => []
  | some condition => condition.nodes

/-- A DataPoint class in the line of an operator or of a capability. -/
def NamesDataPoint (dataPointType : P) : Prop :=
  (∃ operator ∈ flow.operators,
      dataPointType ∈ flow.dependsOn operator ∨ dataPointType ∈ flow.produces operator)
    ∨ ∃ capability ∈ flow.capabilities, dataPointType ∈ flow.capabilityDependsOn capability

/-- A capability that is listed, or in the line of an operator or of a capability. -/
def NamesCapability (capability : C) : Prop :=
  capability ∈ flow.capabilities
    ∨ (∃ operator ∈ flow.operators, capability ∈ flow.requires operator)
    ∨ ∃ requirer ∈ flow.capabilities, capability ∈ flow.capabilityRequires requirer

/-- The names in the text of a flow are plain. -/
structure Legible : Prop where
  qualname : ∀ dataPointType, flow.NamesDataPoint dataPointType →
    Classes.Plain (classes.qualname dataPointType)
  capabilityName : ∀ capability, flow.NamesCapability capability →
    Classes.Plain (classes.capabilityName capability)
  operatorId : ∀ operator ∈ flow.operators, Classes.Plain (classes.operatorId operator)
  conditions : classes.LegibleNodes flow.conditionNodes

/-- What two flows name alike is the same class, or a condition that says the same. -/
structure ToldApart : Prop where
  dataPoints : ∀ dataPointType dataPointType', flow.NamesDataPoint dataPointType →
    flow'.NamesDataPoint dataPointType' →
    classes.qualname dataPointType = classes.qualname dataPointType' →
    dataPointType = dataPointType'
  capabilities : ∀ capability capability', flow.NamesCapability capability →
    flow'.NamesCapability capability' →
    classes.capabilityName capability = classes.capabilityName capability' →
    capability = capability'
  conditions : classes.NodesToldApart flow.conditionNodes flow'.conditionNodes

/-- Capabilities that a flow lists under one name have one line. -/
def ListsApart : Prop :=
  ∀ capability ∈ flow.capabilities, ∀ capability' ∈ flow.capabilities,
    classes.capabilityName capability = classes.capabilityName capability' →
    flow.capabilityLine classes capability = flow.capabilityLine classes capability'

end

variable {classes : Classes P C O} {flow flow' : FlowDefinition P C O}

/-! ### Lines -/

theorem pyBool_inj {value value' : Bool} (h : pyBool value = pyBool value') :
  value = value'
  := by
  revert h
  revert value value'
  decide

theorem pyOptionalInt_inj {number number' : Option ℤ}
    (h : pyOptionalInt number = pyOptionalInt number') :
  number = number'
  := by
  have hnone : ∀ number : ℤ, pyOptionalInt (some number) ≠ pyOptionalInt none := by
    intro number hnumber
    have hdigit := Readable.isDigit_of_mem_intText (n := number) (c := 'N')
    rw [show toString number = "None" from hnumber] at hdigit
    exact absurd (hdigit (by decide)) (by decide)
  cases number with
  | none =>
      cases number' with
      | none => rfl
      | some number' => exact absurd h.symm (hnone number')
  | some number =>
      cases number' with
      | none => exact absurd h (hnone number)
      | some number' => exact congrArg _ (Readable.intText_inj.mp h)

theorem rerunOn_value_inj {rerunOn rerunOn' : RerunOn} (h : rerunOn.value = rerunOn'.value) :
  rerunOn = rerunOn'
  := by
  cases rerunOn with
  | addedOrUpdated =>
      cases rerunOn' with
      | addedOrUpdated => rfl
      | addedOnly => exact absurd h (by decide)
  | addedOnly =>
      cases rerunOn' with
      | addedOrUpdated => exact absurd h (by decide)
      | addedOnly => rfl

/-- What the line of an operator says of it is the same in two flows. -/
structure SameOperator (flow flow' : FlowDefinition P C O) (operator : O) : Prop where
  dependsOn : flow.dependsOn operator = flow'.dependsOn operator
  produces : flow.produces operator = flow'.produces operator
  requires : flow.requires operator = flow'.requires operator
  policy : flow.policy operator = flow'.policy operator

/-- What the line of a capability says of it is the same in two flows. -/
structure SameCapability (flow flow' : FlowDefinition P C O) (capability : C) : Prop where
  dependsOn : flow.capabilityDependsOn capability = flow'.capabilityDependsOn capability
  requires : flow.capabilityRequires capability = flow'.capabilityRequires capability

/-- The line of an operator determines it and what it says. -/
theorem operatorLine_inj (h : flow.Legible classes) (h' : flow'.Legible classes)
    (hapart : flow.ToldApart classes flow') {operator operator' : O}
    (hmem : operator ∈ flow.operators) (hmem' : operator' ∈ flow'.operators)
    (hline : flow.operatorLine classes operator = flow'.operatorLine classes operator') :
  operator = operator' ∧ flow.SameOperator flow' operator
  := by
  have htext := congrArg String.toList hline
  unfold operatorLine at htext
  simp only [String.toList_append, List.append_assoc] at htext
  have hspace : ∀ value, ' ' ∉ (pyBool value).toList := by decide
  have hmode : ∀ rerunOn : RerunOn, ' ' ∉ rerunOn.value.toList := by
    intro rerunOn
    cases rerunOn with
    | addedOrUpdated => decide
    | addedOnly => decide
  obtain ⟨hid, htext⟩ := Classes.cut " depends_on=[" rfl
    ((h.operatorId operator hmem).not_mem (c := ' ') (by decide))
    ((h'.operatorId operator' hmem').not_mem (by decide)) (List.append_cancel_left htext)
  obtain rfl := classes.operatorId_injective hid
  have hdepends : ∀ t ∈ flow.dependsOn operator, flow.NamesDataPoint t :=
    fun t ht => Or.inl ⟨operator, hmem, Or.inl ht⟩
  have hdepends' : ∀ t ∈ flow'.dependsOn operator, flow'.NamesDataPoint t :=
    fun t ht => Or.inl ⟨operator, hmem', Or.inl ht⟩
  have hproduced : ∀ t ∈ flow.produces operator, flow.NamesDataPoint t :=
    fun t ht => Or.inl ⟨operator, hmem, Or.inr ht⟩
  have hproduced' : ∀ t ∈ flow'.produces operator, flow'.NamesDataPoint t :=
    fun t ht => Or.inl ⟨operator, hmem', Or.inr ht⟩
  have hrequired : ∀ c ∈ flow.requires operator, flow.NamesCapability c :=
    fun c hc => Or.inr (Or.inl ⟨operator, hmem, hc⟩)
  have hrequired' : ∀ c ∈ flow'.requires operator, flow'.NamesCapability c :=
    fun c hc => Or.inr (Or.inl ⟨operator, hmem', hc⟩)
  obtain ⟨hdependsOn, htext⟩ := Classes.cut "]" rfl
    (Classes.not_mem_sortedNames (fun t ht => h.qualname t (hdepends t ht)) (by decide)
      (by decide))
    (Classes.not_mem_sortedNames (fun t ht => h'.qualname t (hdepends' t ht)) (by decide)
      (by decide)) htext
  obtain ⟨hproduces, htext⟩ := Classes.cut "]" rfl
    (Classes.not_mem_sortedNames (fun t ht => h.qualname t (hproduced t ht)) (by decide)
      (by decide))
    (Classes.not_mem_sortedNames (fun t ht => h'.qualname t (hproduced' t ht)) (by decide)
      (by decide)) (List.append_cancel_left htext)
  obtain ⟨hrequires, htext⟩ := Classes.cut "]" rfl
    (Classes.not_mem_sortedNames (fun c hc => h.capabilityName c (hrequired c hc)) (by decide)
      (by decide))
    (Classes.not_mem_sortedNames (fun c hc => h'.capabilityName c (hrequired' c hc)) (by decide)
      (by decide)) (List.append_cancel_left htext)
  obtain ⟨hrerun, htext⟩ := Classes.cut " rerun_on=" rfl (hspace _) (hspace _)
    (List.append_cancel_left htext)
  obtain ⟨hrerunOn, htext⟩ := Classes.cut " max_cycles=" rfl (hmode _) (hmode _) htext
  constructor
  · rfl
  · constructor
    · exact Classes.sortedNames_inj (fun t ht => h.qualname t (hdepends t ht))
        (fun t ht => h'.qualname t (hdepends' t ht))
        (fun t ht t' ht' => hapart.dataPoints t t' (hdepends t ht) (hdepends' t' ht')) hdependsOn
    · exact Classes.sortedNames_inj (fun t ht => h.qualname t (hproduced t ht))
        (fun t ht => h'.qualname t (hproduced' t ht))
        (fun t ht t' ht' => hapart.dataPoints t t' (hproduced t ht) (hproduced' t' ht')) hproduces
    · exact Classes.sortedNames_inj (fun c hc => h.capabilityName c (hrequired c hc))
        (fun c hc => h'.capabilityName c (hrequired' c hc))
        (fun c hc c' hc' => hapart.capabilities c c' (hrequired c hc) (hrequired' c' hc'))
        hrequires
    · have hcycles := pyOptionalInt_inj (String.toList_injective htext)
      have hrerun' := pyBool_inj hrerun
      have hmode' := rerunOn_value_inj hrerunOn
      revert hcycles hrerun' hmode'
      cases flow.policy operator
      cases flow'.policy operator
      rintro rfl rfl rfl
      rfl

/-- The line of a capability determines it and what it says. -/
theorem capabilityLine_inj (h : flow.Legible classes) (h' : flow'.Legible classes)
    (hapart : flow.ToldApart classes flow') {capability capability' : C}
    (hmem : capability ∈ flow.capabilities) (hmem' : capability' ∈ flow'.capabilities)
    (hline : flow.capabilityLine classes capability = flow'.capabilityLine classes capability') :
  capability = capability' ∧ flow.SameCapability flow' capability
  := by
  have htext := congrArg String.toList hline
  unfold capabilityLine at htext
  simp only [String.toList_append, List.append_assoc] at htext
  obtain ⟨hname, htext⟩ := Classes.cut " depends_on=[" rfl
    ((h.capabilityName capability (Or.inl hmem)).not_mem (c := ' ') (by decide))
    ((h'.capabilityName capability' (Or.inl hmem')).not_mem (by decide))
    (List.append_cancel_left htext)
  obtain rfl := hapart.capabilities capability capability' (Or.inl hmem) (Or.inl hmem') hname
  have hdepends : ∀ t ∈ flow.capabilityDependsOn capability, flow.NamesDataPoint t :=
    fun t ht => Or.inr ⟨capability, hmem, ht⟩
  have hdepends' : ∀ t ∈ flow'.capabilityDependsOn capability, flow'.NamesDataPoint t :=
    fun t ht => Or.inr ⟨capability, hmem', ht⟩
  have hrequired : ∀ c ∈ flow.capabilityRequires capability, flow.NamesCapability c :=
    fun c hc => Or.inr (Or.inr ⟨capability, hmem, hc⟩)
  have hrequired' : ∀ c ∈ flow'.capabilityRequires capability, flow'.NamesCapability c :=
    fun c hc => Or.inr (Or.inr ⟨capability, hmem', hc⟩)
  obtain ⟨hdependsOn, htext⟩ := Classes.cut "]" rfl
    (Classes.not_mem_sortedNames (fun t ht => h.qualname t (hdepends t ht)) (by decide)
      (by decide))
    (Classes.not_mem_sortedNames (fun t ht => h'.qualname t (hdepends' t ht)) (by decide)
      (by decide)) htext
  have hrequires := String.toList_injective
    (List.append_cancel_right (List.append_cancel_left htext))
  constructor
  · rfl
  · constructor
    · exact Classes.sortedNames_inj (fun t ht => h.qualname t (hdepends t ht))
        (fun t ht => h'.qualname t (hdepends' t ht))
        (fun t ht t' ht' => hapart.dataPoints t t' (hdepends t ht) (hdepends' t' ht')) hdependsOn
    · exact Classes.sortedNames_inj (fun c hc => h.capabilityName c (hrequired c hc))
        (fun c hc => h'.capabilityName c (hrequired' c hc))
        (fun c hc c' hc' => hapart.capabilities c c' (hrequired c hc) (hrequired' c' hc'))
        hrequires

/-- A description is not the text of a flow without a condition. -/
theorem describeCondition_ne_none {condition : CompletionCondition P}
    (h : classes.LegibleNodes condition.nodes) :
  classes.describeCondition condition ≠ "None"
  := by
  intro hcondition
  cases condition with
  | custom custom => exact h.text_ne custom List.mem_cons_self hcondition
  | typePresent dataPointType =>
      have hhead := congrArg (fun text : String => text.toList.head?) hcondition
      simp [Classes.describeCondition] at hhead
  | allOf children =>
      have hhead := congrArg (fun text : String => text.toList.head?) hcondition
      simp [Classes.describeCondition] at hhead
  | anyOf children =>
      have hhead := congrArg (fun text : String => text.toList.head?) hcondition
      simp [Classes.describeCondition] at hhead

/-- The line of the completion condition determines what it says. -/
theorem completionLine_inj (h : flow.Legible classes) (h' : flow'.Legible classes)
    (hapart : flow.ToldApart classes flow')
    (hline : flow.completionLine classes = flow'.completionLine classes) :
  (normalizeCompletion flow.completesWhen).map CompletionCondition.unnamed
    = (normalizeCompletion flow'.completesWhen).map CompletionCondition.unnamed
  := by
  have hnodes := h.conditions
  have hnodes' := h'.conditions
  have hconditions := hapart.conditions
  have htext := congrArg String.toList hline
  rw [completionLine, completionLine, String.toList_append, String.toList_append] at htext
  have hdescription := String.toList_injective (List.append_cancel_left htext)
  rw [conditionNodes] at hnodes hnodes' hconditions
  rw [conditionNodes] at hconditions
  revert hdescription hnodes hnodes' hconditions
  cases normalizeCompletion flow.completesWhen with
  | none =>
      cases normalizeCompletion flow'.completesWhen with
      | none =>
          intros
          rfl
      | some condition' =>
          intro _ hnodes' _ hsame
          exact absurd hsame.symm (describeCondition_ne_none hnodes')
  | some condition =>
      cases normalizeCompletion flow'.completesWhen with
      | none =>
          intro hnodes _ _ hsame
          exact absurd hsame (describeCondition_ne_none hnodes)
      | some condition' =>
          intro hnodes hnodes' hconditions hsame
          have hchars : (classes.describeCondition condition).toList ++ []
              = (classes.describeCondition condition').toList ++ [] := by
            rw [show classes.describeCondition condition = _ from hsame]
          rw [Option.map_some, Option.map_some, (Classes.LegibleNodes.describeCondition_inj hnodes
            hnodes' hconditions Classes.ends_nil Classes.ends_nil hchars).1]

/-! ### The text as a whole -/

/-- No operator's line contains a line break. -/
theorem newline_not_mem_operatorLine (h : flow.Legible classes) {operator : O}
    (hmem : operator ∈ flow.operators) :
  '\n' ∉ (flow.operatorLine classes operator).toList
  := by
  have hbool : ∀ value, '\n' ∉ (pyBool value).toList := by decide
  have hmode : ∀ rerunOn : RerunOn, '\n' ∉ rerunOn.value.toList := by
    intro rerunOn
    cases rerunOn with
    | addedOrUpdated => decide
    | addedOnly => decide
  have hcycles : ∀ number : Option ℤ, '\n' ∉ (pyOptionalInt number).toList := by
    intro number
    cases number with
    | none => decide
    | some number =>
        intro hmem
        obtain hdigit | hminus := Readable.isDigit_of_mem_intText hmem
        · exact absurd hdigit (by decide)
        · exact absurd hminus (by decide)
  have hdependsOn : '\n' ∉ (classes.dataPointNames (flow.dependsOn operator)).toList :=
    Classes.not_mem_sortedNames
      (fun t ht => h.qualname t (Or.inl ⟨operator, hmem, Or.inl ht⟩)) (by decide) (by decide)
  have hproduces : '\n' ∉ (classes.dataPointNames (flow.produces operator)).toList :=
    Classes.not_mem_sortedNames
      (fun t ht => h.qualname t (Or.inl ⟨operator, hmem, Or.inr ht⟩)) (by decide) (by decide)
  have hrequires : '\n' ∉ (classes.capabilityNames (flow.requires operator)).toList :=
    Classes.not_mem_sortedNames
      (fun c hc => h.capabilityName c (Or.inr (Or.inl ⟨operator, hmem, hc⟩))) (by decide)
      (by decide)
  have hid := (h.operatorId operator hmem).not_mem (c := '\n') (by decide)
  unfold operatorLine
  simp only [String.toList_append, List.mem_append, not_or]
  exact ⟨⟨⟨⟨⟨⟨⟨⟨⟨⟨⟨⟨⟨⟨⟨⟨by decide, hid⟩, by decide⟩, hdependsOn⟩, by decide⟩, by decide⟩,
    hproduces⟩, by decide⟩, by decide⟩, hrequires⟩, by decide⟩, by decide⟩, hbool _⟩, by decide⟩,
    hmode _⟩, by decide⟩, hcycles _⟩

/-- No capability's line contains a line break. -/
theorem newline_not_mem_capabilityLine (h : flow.Legible classes) {capability : C}
    (hmem : capability ∈ flow.capabilities) :
  '\n' ∉ (flow.capabilityLine classes capability).toList
  := by
  have hdependsOn :
      '\n' ∉ (classes.dataPointNames (flow.capabilityDependsOn capability)).toList :=
    Classes.not_mem_sortedNames (fun t ht => h.qualname t (Or.inr ⟨capability, hmem, ht⟩))
      (by decide) (by decide)
  have hrequires :
      '\n' ∉ (classes.capabilityNames (flow.capabilityRequires capability)).toList :=
    Classes.not_mem_sortedNames
      (fun c hc => h.capabilityName c (Or.inr (Or.inr ⟨capability, hmem, hc⟩))) (by decide)
      (by decide)
  have hname := (h.capabilityName capability (Or.inl hmem)).not_mem (c := '\n') (by decide)
  unfold capabilityLine
  simp only [String.toList_append, List.mem_append, not_or]
  exact ⟨⟨⟨⟨⟨⟨⟨by decide, hname⟩, by decide⟩, hdependsOn⟩, by decide⟩, by decide⟩, hrequires⟩,
    by decide⟩

/-- The line of the completion condition contains no line break. -/
theorem newline_not_mem_completionLine (h : flow.Legible classes) :
  '\n' ∉ (flow.completionLine classes).toList
  := by
  have hnodes := h.conditions
  rw [conditionNodes] at hnodes
  rw [completionLine, String.toList_append, List.mem_append, not_or]
  constructor
  · decide
  · revert hnodes
    cases normalizeCompletion flow.completesWhen with
    | none =>
        intro
        exact (by decide : '\n' ∉ "None".toList)
    | some condition =>
        intro hnodes
        exact Classes.LegibleNodes.newline_not_mem hnodes

/-- No line contains a line break. -/
theorem newline_not_mem_lines (h : flow.Legible classes) :
  ∀ word ∈ (flow.lines classes).map String.toList, '\n' ∉ word
  := by
  intro word hword
  obtain ⟨line, hline, rfl⟩ := List.mem_map.mp hword
  rw [lines, List.mem_append, List.mem_append, List.mem_map, List.mem_map,
    List.mem_singleton] at hline
  obtain (⟨operator, hmem, rfl⟩ | ⟨capability, hmem, rfl⟩) | rfl := hline
  · exact newline_not_mem_operatorLine h ((Paging.mem_inOrder _).mp hmem)
  · exact newline_not_mem_capabilityLine h ((Paging.mem_inOrder _).mp hmem)
  · exact newline_not_mem_completionLine h

/-- Flows of one fingerprint have the same lines. -/
theorem lines_eq_of_fingerprint {sha256 : String → String} (hsha256 : Function.Injective sha256)
    (h : flow.Legible classes) (h' : flow'.Legible classes)
    (hfingerprint : flow.fingerprint classes sha256 = flow'.fingerprint classes sha256) :
  flow.lines classes = flow'.lines classes
  := by
  have hchars := congrArg String.toList (hsha256 hfingerprint)
  rw [String.toList_intercalate, String.toList_intercalate] at hchars
  have hne : ∀ flow : FlowDefinition P C O, (flow.lines classes).map String.toList ≠ [] := by
    intro flow
    rw [lines, List.map_append]
    exact List.append_ne_nil_of_right_ne_nil _ (by simp)
  have hwords := Delimited.intercalate_inj (newline_not_mem_lines h)
    (newline_not_mem_lines h') (hne flow) (hne flow') hchars
  exact List.map_injective_iff.mpr (fun _ _ => String.toList_injective) hwords

/-- Two flows that list the same operators and capabilities in some order, which declare the
same as far as the text goes, with completion conditions that say the same. -/
structure Alike (flow flow' : FlowDefinition P C O) : Prop where
  operators : flow.operators.Perm flow'.operators
  capabilities : flow.capabilities.Perm flow'.capabilities
  operator : ∀ operator ∈ flow.operators, flow.SameOperator flow' operator
  capability : ∀ capability ∈ flow.capabilities, flow.SameCapability flow' capability
  completesWhen : (normalizeCompletion flow.completesWhen).map CompletionCondition.unnamed
    = (normalizeCompletion flow'.completesWhen).map CompletionCondition.unnamed

/-- Flows of one fingerprint are alike, where the names tell apart what they name. -/
theorem alike_of_fingerprint {sha256 : String → String} (hsha256 : Function.Injective sha256)
    (h : flow.Legible classes) (h' : flow'.Legible classes)
    (hapart : flow.ToldApart classes flow')
    (hfingerprint : flow.fingerprint classes sha256 = flow'.fingerprint classes sha256) :
  flow.Alike flow'
  := by
  have hletter : ∀ (flow : FlowDefinition P C O) (operators : List O), ∀ line ∈
      operators.map (flow.operatorLine classes), decide (line.toList.head? = some 'o') = true := by
    intro flow operators line hline
    obtain ⟨operator, -, rfl⟩ := List.mem_map.mp hline
    unfold operatorLine
    simp only [String.toList_append, List.append_assoc]
    rfl
  have hother : ∀ (flow : FlowDefinition P C O) (capabilities : List C), ∀ line ∈
      capabilities.map (flow.capabilityLine classes),
        decide (line.toList.head? = some 'o') = false := by
    intro flow capabilities line hline
    obtain ⟨capability, -, rfl⟩ := List.mem_map.mp hline
    unfold capabilityLine
    simp only [String.toList_append, List.append_assoc]
    rfl
  obtain ⟨hsections, hcompletion⟩ :=
    List.append_inj' (lines_eq_of_fingerprint hsha256 h h' hfingerprint) rfl
  obtain ⟨hoperators, hcapabilities⟩ := Delimited.append_inj_of_forall (hletter flow _)
    (hletter flow' _) (hother flow _) (hother flow' _) hsections
  obtain ⟨hlisted, hoperator⟩ := Delimited.map_inj_of_determined
    (fun operator hmem operator' hmem' => operatorLine_inj h h' hapart
      ((Paging.mem_inOrder _).mp hmem) ((Paging.mem_inOrder _).mp hmem')) hoperators
  obtain ⟨hprovided, hcapability⟩ := Delimited.map_inj_of_determined
    (fun capability hmem capability' hmem' => capabilityLine_inj h h' hapart
      ((Paging.mem_inOrder _).mp hmem) ((Paging.mem_inOrder _).mp hmem')) hcapabilities
  constructor
  · exact (Paging.perm_inOrder _ _).symm.trans
      (hlisted ▸ Paging.perm_inOrder classes.operatorId flow'.operators)
  · exact (Paging.perm_inOrder _ _).symm.trans
      (hprovided ▸ Paging.perm_inOrder classes.capabilityName flow'.capabilities)
  · intro operator hmem
    exact hoperator operator ((Paging.mem_inOrder _).mpr hmem)
  · intro capability hmem
    exact hcapability capability ((Paging.mem_inOrder _).mpr hmem)
  · exact completionLine_inj h h' hapart (List.singleton_injective hcompletion)

/-! ### The order of a declaration -/

/-- A flow with its operators and capabilities in another order. -/
def reordered (flow : FlowDefinition P C O) (operators : List O) (capabilities : List C) :
    FlowDefinition P C O :=
  { flow with operators := operators, capabilities := capabilities }

variable {operators : List O} {capabilities : List C}

/-- The names of a flow do not depend on its order. -/
theorem Legible.reordered (h : flow.Legible classes) (hoperators : flow.operators.Perm operators)
    (hcapabilities : flow.capabilities.Perm capabilities) :
  (flow.reordered operators capabilities).Legible classes
  := by
  constructor
  · rintro t (⟨operator, hmem, ht⟩ | ⟨capability, hmem, ht⟩)
    · exact h.qualname t (Or.inl ⟨operator, hoperators.mem_iff.mpr hmem, ht⟩)
    · exact h.qualname t (Or.inr ⟨capability, hcapabilities.mem_iff.mpr hmem, ht⟩)
  · rintro c (hmem | ⟨operator, hmem, hc⟩ | ⟨capability, hmem, hc⟩)
    · exact h.capabilityName c (Or.inl (hcapabilities.mem_iff.mpr hmem))
    · exact h.capabilityName c (Or.inr (Or.inl ⟨operator, hoperators.mem_iff.mpr hmem, hc⟩))
    · exact h.capabilityName c
        (Or.inr (Or.inr ⟨capability, hcapabilities.mem_iff.mpr hmem, hc⟩))
  · intro operator hmem
    exact h.operatorId operator (hoperators.mem_iff.mpr hmem)
  · exact h.conditions

/-- The lines of a flow in another order. -/
theorem lines_reordered (hoperators : flow.operators.Perm operators) :
  (flow.reordered operators capabilities).lines classes
    = (Paging.inOrder classes.operatorId flow.operators).map (flow.operatorLine classes)
      ++ (Paging.inOrder classes.capabilityName capabilities).map (flow.capabilityLine classes)
      ++ [flow.completionLine classes]
  := by
  rw [Paging.inOrder_congr_of_injective _ classes.operatorId_injective hoperators]
  rfl

/-- The fingerprint does not depend on the order, if capabilities that are listed under one name
have one line. -/
theorem fingerprint_reordered {sha256 : String → String} (h : flow.ListsApart classes)
    (hoperators : flow.operators.Perm operators)
    (hcapabilities : flow.capabilities.Perm capabilities) :
  (flow.reordered operators capabilities).fingerprint classes sha256
    = flow.fingerprint classes sha256
  := by
  rw [fingerprint, fingerprint, lines_reordered hoperators, lines,
    (Paging.map_inOrder_eq_iff classes.capabilityName).mpr h capabilities hcapabilities]

/-- Only then it does not. -/
theorem listsApart_of_fingerprint {sha256 : String → String} (hsha256 : Function.Injective sha256)
    (h : flow.Legible classes)
    (hall : ∀ operators capabilities, flow.operators.Perm operators →
      flow.capabilities.Perm capabilities →
      (flow.reordered operators capabilities).fingerprint classes sha256
        = flow.fingerprint classes sha256) :
  flow.ListsApart classes
  := by
  apply (Paging.map_inOrder_eq_iff classes.capabilityName).mp
  intro capabilities hcapabilities
  have hlines := lines_eq_of_fingerprint hsha256
    (h.reordered (List.Perm.refl _) hcapabilities) h
    (hall flow.operators capabilities (List.Perm.refl _) hcapabilities)
  rw [lines_reordered (List.Perm.refl _), lines] at hlines
  exact (List.append_cancel_left (List.append_inj' hlines rfl).1).symm

end FlowDefinition

end Orcastork
