import FederatedMetrics.Proofs.Query.Rewriting
import FederatedMetrics.Query.Codec

/-!
# Full and short forms of queries

Filters, group-bys, queries and groups are read alike in all their forms. A definition may have
definitions inside, so for queries and groups this is an induction on the depth that is read.
-/

namespace FederatedMetrics

open Json

theorem governs_text : Shape.text.Governs text := Shape.governs_of_isFlat rfl rfl _

theorem governs_texts : (Shape.list .text).Governs (listOf text) :=
  Shape.governs_listOf governs_text

theorem Category.governs : Shape.category.Governs Category.decode :=
  Shape.governs_choice rfl (by decide)

theorem DataType.governs : Shape.dataType.Governs DataType.decode :=
  Shape.governs_of_isFlat rfl rfl _

theorem Comparison.governs : Shape.comparison.Governs Comparison.decode :=
  Shape.governs_of_isFlat rfl rfl _

theorem Connective.governs : Shape.connective.Governs Connective.decode :=
  Shape.governs_choice rfl (by decide)

theorem QueryType.governs : Shape.queryType.Governs QueryType.decode :=
  Shape.governs_choice rfl (by decide)

theorem Filter.governs : Shape.filter.Governs Filter.decode := by
  have hflag : Shape.flag.Governs flag := Shape.governs_of_isFlat rfl rfl _
  have hrecord : Shape.filter.fields ≠ [] := List.cons_ne_nil _ _
  refine Shape.governs_record hrecord ?_
  exact Shape.Reading.start _ Filter.mk
    |>.withDefault rfl governs_text ""
    |>.required rfl governs_text
    |>.withDefault rfl hflag false
    |>.withDefault rfl DataType.governs .categorical
    |>.withDefault rfl governs_text ""
    |>.required rfl Comparison.governs
    |>.withDefault rfl governs_text ""
    |>.withDefault rfl Connective.governs .and

theorem GroupBy.governs : Shape.groupBy.Governs GroupBy.decode := by
  have hflag : Shape.flag.Governs flag := Shape.governs_of_isFlat rfl rfl _
  have hrecord : Shape.groupBy.fields ≠ [] := List.cons_ne_nil _ _
  refine Shape.governs_record hrecord ?_
  exact Shape.Reading.start _ GroupBy.mk
    |>.withDefault rfl governs_text ""
    |>.required rfl governs_text
    |>.withDefault rfl hflag false
    |>.withDefault rfl DataType.governs .categorical
    |>.withDefault rfl governs_text ""

/-- A granularity that is not given says as much as null and as the empty text. -/
theorem Granularity.decodeOptional_of_idle {document : Document} (h : document ∈ [.str "", .null])
    (nesting : Nat) : decodeOptional nesting document = .ok none := by
  simp only [List.mem_cons, List.not_mem_nil, or_false] at h
  rcases h with rfl | rfl <;> rfl

theorem Query.governs_decodeWith {definition : Decoder QueryGroup}
    (h : Shape.group.Governs definition) : Shape.query.Governs (decodeWith definition) := by
  have hint : Shape.int.Governs int64 := Shape.governs_of_isFlat rfl rfl _
  have hgranularity : Shape.granularity.Governs Granularity.decodeOptional :=
    Shape.governs_of_isFlat rfl rfl _
  have hrecord : Shape.query.fields ≠ [] := List.cons_ne_nil _ _
  refine Shape.governs_record hrecord ?_
  exact Shape.Reading.start _ Query.mk
    |>.required rfl Category.governs
    |>.required rfl governs_text
    |>.withDefault rfl governs_texts []
    |>.withDefault rfl (Shape.governs_listOf Filter.governs) []
    |>.withDefault rfl (Shape.governs_listOf GroupBy.governs) []
    |>.withDefault rfl hint 0
    |>.withDefault rfl hint 0
    |>.withIdle rfl hgranularity (fun _ => Granularity.decodeOptional_of_idle)
    |>.withDefault rfl QueryType.governs .standard
    |>.withDefault rfl governs_text ""
    |>.withDefault rfl governs_text ""
    |>.withDefault rfl governs_text ""
    |>.withDefault rfl (Shape.governs_nullable h) none

theorem QueryGroup.governs_decodeWith {query : Decoder Query} (h : Shape.query.Governs query) :
    Shape.group.Governs (decodeWith query) := by
  have hrecord : Shape.group.fields ≠ [] := List.cons_ne_nil _ _
  refine Shape.governs_record hrecord ?_
  exact Shape.Reading.start _ QueryGroup.mk
    |>.withDefault rfl governs_text ""
    |>.withDefault rfl governs_text ""
    |>.withDefault rfl (Shape.governs_listOf h) []
    |>.withDefault rfl (Shape.governs_listOf Filter.governs) []
    |>.withDefault rfl (Shape.governs_listOf GroupBy.governs) []
    |>.withDefault rfl governs_text ""

/-- Definitions are inside each other, so what holds of a group with them holds by induction on their
depth. -/
theorem QueryGroup.governs_decodeWithin (depth : Nat) : Shape.group.Governs (decodeWithin depth) := by
  induction depth with
  | zero =>
      exact ⟨fun _ _ x hx => absurd hx (tooDeep_ne_ok _ x), fun _ _ x => tooDeep_ne_ok _ x⟩
  | succ depth ih => exact governs_decodeWith (Query.governs_decodeWith ih)

theorem QueryGroup.governs : Shape.group.Governs QueryGroup.decode where
  kept h nesting _ hx := (governs_decodeWithin nesting).kept h hx
  refused h nesting x := (governs_decodeWithin nesting).refused h nesting x

theorem Query.governs : Shape.query.Governs Query.decode where
  kept h nesting _ hx := (governs_decodeWith (QueryGroup.governs_decodeWithin nesting)).kept h hx
  refused h nesting x :=
    (governs_decodeWith (QueryGroup.governs_decodeWithin nesting)).refused h nesting x

/-- Groups, queries, filters and group-bys are read alike in full and in short form, from documents and
from texts, and a document in which a record gives a field twice is refused. -/
theorem forms_read_alike :
    Shape.group.ReadsAlike QueryGroup.decode ∧ Shape.query.ReadsAlike Query.decode ∧
      Shape.filter.ReadsAlike Filter.decode ∧ Shape.groupBy.ReadsAlike GroupBy.decode :=
  ⟨QueryGroup.governs.readsAlike, Query.governs.readsAlike, Filter.governs.readsAlike,
    GroupBy.governs.readsAlike⟩

/-- A group with a definition inside, where the name of a field, the entries that say nothing and the
category of the defining query are left open. -/
def groupForm (queries : String) (idle : List (Option String × Document)) (category : String) :
    Document :=
  .obj [(some queries, .arr [.obj ((some "category", .str "events") ::
    (some "display_category", .str "visits") :: (idle ++
      [(some "definition", .obj [(some "queries", .arr [.obj [(some "category", .str category),
        (some "display_category", .str "users")]])])]))])]

/-- The only member of a group is rewritten. -/
theorem rewrites_member {key : String} (hkey : key ∈ ["queries", "qG"]) {member member' : Document}
    (h : Shape.query.Rewrites member member') :
    Shape.group.Rewrites (.obj [(some key, .arr [member])]) (.obj [(some key, .arr [member'])]) := by
  have hfield : (⟨["queries", "qG"], .list .query, []⟩ : FieldForm) ∈ Shape.group.fields := by
    simp [Shape.fields]
  have hitem : (Shape.list .query).Rewrites (.arr [member]) (.arr [member']) :=
    @Shape.Rewrites.inItem .query member member' [] [] h
  exact @Shape.Rewrites.inField .group _ key _ _ [] [] hfield hkey hitem

/-- The short form of a group is read as its full form, also inside the definition. -/
theorem forms_read_alike_nested :
    ∃ g, QueryGroup.decode 9 (groupForm "queries" [(some "gbt", .str "")] "profiles") = .ok g ∧
      QueryGroup.decode 9 (groupForm "qG" [] "profile") = .ok g := by
  have hrename : Shape.group.Rewrites (groupForm "queries" [(some "gbt", .str "")] "profiles")
      (groupForm "qG" [(some "gbt", .str "")] "profiles") := by
    have hfield : (⟨["queries", "qG"], .list .query, []⟩ : FieldForm) ∈ Shape.group.fields := by
      simp [Shape.fields]
    exact @Shape.Rewrites.rename .group _ "queries" "qG" _ [] [] hfield (by simp) (by simp)
  have hdrop : Shape.group.Rewrites (groupForm "qG" [(some "gbt", .str "")] "profiles")
      (groupForm "qG" [] "profiles") := by
    have hfield : (⟨["group_by_timestamp", "gbt"], .granularity, [.str "", .null]⟩ : FieldForm) ∈
        Shape.query.fields := by simp [Shape.fields]
    exact rewrites_member (by simp)
      (@Shape.Rewrites.drop .query _ "gbt" _ [_, _] [_] hfield (by simp) (by simp))
  have hrespell : Shape.group.Rewrites (groupForm "qG" [] "profiles")
      (groupForm "qG" [] "profile") := by
    have hcategory : (⟨["category", "ca"], .category, []⟩ : FieldForm) ∈ Shape.query.fields := by
      simp [Shape.fields]
    have hdefinition : (⟨["definition"], .optional .group, []⟩ : FieldForm) ∈
        Shape.query.fields := by simp [Shape.fields]
    have hname : Shape.category.Rewrites (.str "profiles") (.str "profile") :=
      @Shape.Rewrites.respell .category ["profiles", "profile"] _ _ (by simp [Shape.synonyms])
        (by simp) (by simp)
    have hinner := rewrites_member (by simp : "queries" ∈ ["queries", "qG"])
      (@Shape.Rewrites.inField .query _ "category" _ _ [] [(some "display_category", .str "users")]
        hcategory (by simp) hname)
    exact rewrites_member (by simp) (@Shape.Rewrites.inField .query _ "definition" _ _ [_, _] []
      hdefinition (by simp) (.inOptional hinner))
  have hchain := ((Relation.ReflTransGen.single hrename).tail hdrop).tail hrespell
  exact ⟨_, rfl, forms_read_alike.1.document hchain rfl⟩

end FederatedMetrics
