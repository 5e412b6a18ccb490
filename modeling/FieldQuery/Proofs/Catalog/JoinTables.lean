import FieldQuery.Compile.Settings
import FieldQuery.Proofs.Catalog.Descriptions
import FieldQuery.Proofs.Catalog.Joining
import FieldQuery.Proofs.Entity.Lookups

/-!
# Both sides of a join table

Two entities that are linked over a join table describe the link once each, and every one of them
describes it from its own side: it knows itself by its name alone, and the other one as a target. If
nothing is declared about keys, the two links name the columns of the join table alike, since both
columns go by names. The join table goes by the name of the owner and the table of the target, so
the links name one join table, and join the same rows, if both entities have the tables that go by
their names. A declared table is seen from the other side only.
-/

namespace FieldQuery

open FieldQuery.Catalog FieldQuery.Naming FieldQuery.Schema FieldQuery.Sql

namespace Catalog

/-! ## Join tables by convention -/

/-- The order of two tables does not matter. -/
theorem conventionalJoinTable_comm (a b : String) :
    conventionalJoinTable a b = conventionalJoinTable b a := by
  unfold conventionalJoinTable
  by_cases hlt : a < b
  · rw [if_neg (String.lt_asymm hlt), if_pos hlt]
  by_cases hgt : b < a
  · rw [if_pos hgt, if_neg (String.lt_asymm hgt)]
  · -- Neither comes first, so they are one table.
    rw [String.le_antisymm (String.not_lt.mp hgt) (String.not_lt.mp hlt)]

/-- Two tables that come on the same side of a third one have different join tables with it. -/
theorem conventionalJoinTable_left_inj {a b c : String} (hside : c < a ↔ c < b) :
    conventionalJoinTable a c = conventionalJoinTable b c ↔ a = b := by
  unfold conventionalJoinTable
  by_cases hlt : c < a
  · rw [if_pos hlt, if_pos (hside.mp hlt)]
    simp [← String.toList_inj]
  · rw [if_neg hlt, if_neg (mt hside.mpr hlt)]
    simp [← String.toList_inj]

/-! ## Links over a join table as they are declared -/

/-- A declaration that leaves the join table and its columns to the conventions. -/
structure LeavesJoinOpen (d : AssociationDeclaration) : Prop where
  joinTable : d.joinTable = none
  foreignKey : d.foreignKey = none
  associationForeignKey : d.associationForeignKey = none

variable {provider : Provider} {owner : EntityName} {d : AssociationDeclaration} {link : Link}

/-- An association over one step is described by a declaration of the entity. -/
theorem exists_describe_of_step {schema : EntitySchema}
    (h : .step link ∈ describeAll provider owner schema) :
    ∃ d ∈ schema.associations, describe provider owner d = link := by
  obtain ⟨declared, -, hdescribe⟩ := List.mem_filterMap.mp h
  unfold describeAssociation? at hdescribe
  split at hdescribe
  · obtain ⟨found, hfound, hstep⟩ := Option.map_eq_some_iff.mp hdescribe
    cases hstep
    obtain ⟨d, hd, rfl⟩ := List.mem_map.mp (List.mem_of_find?_eq_some hfound)
    exact ⟨d, List.mem_of_mem_filter hd, rfl⟩
  · -- An association through another one takes two steps.
    obtain ⟨via, -, hthrough⟩ := Option.bind_eq_some_iff.mp hdescribe
    cases hthrough

/-- What a link over a join table is by convention: the table goes by the name of the owner and the
table of the target, and the columns by both names. -/
theorem describe_manyToMany {target : Target} {joinTable targetKey : String}
    (hopen : LeavesJoinOpen d)
    (hkind : (describe provider owner d).kind = .manyToMany target joinTable targetKey) :
    joinTable = conventionalJoinTable owner.tableName target.table ∧
      (describe provider owner d).foreignKey = owner.foreignKey ∧
      targetKey = target.name.foreignKey := by
  unfold describe at hkind ⊢
  -- only `has_and_belongs_to_many` is described by a join table; the other kinds contradict `hkind`
  cases hdeclared : d.kind with
  | belongsTo => cases hpolymorphic : d.polymorphic <;> simp [hdeclared, hpolymorphic] at hkind
  | hasOne | hasMany => simp [hdeclared] at hkind
  | hasAndBelongsToMany =>
    simp only [hdeclared, hopen.joinTable, hopen.foreignKey, hopen.associationForeignKey,
      Option.getD_none] at hkind ⊢
    cases hkind
    exact ⟨rfl, trivial, rfl⟩

end Catalog

/-! ## The two sides -/

/-- A link in the catalog of an entity over a join table that is left to the conventions. -/
structure Entity.JoinsByConvention (entity : Entity) (link : Link) (target : Target)
    (joinTable targetKey : String) : Prop where
  mem : .step link ∈ entity.catalog.associations
  kind : link.kind = .manyToMany target joinTable targetKey
  leavesOpen : ∀ d ∈ entity.schema.associations, d.name = link.name → LeavesJoinOpen d

/-- The join table and the columns of such a link of an entity that was loaded. -/
theorem Entity.JoinsByConvention.names {provider : Provider} {identifier : String} {entity : Entity}
    {link : Link} {target : Target} {joinTable targetKey : String}
    (hload : Entity.load provider identifier = .ok entity)
    (h : entity.JoinsByConvention link target joinTable targetKey) :
    joinTable = conventionalJoinTable entity.name.tableName target.table ∧
      link.foreignKey = entity.name.foreignKey ∧ targetKey = target.name.foreignKey := by
  obtain ⟨schema, -, -, hentity⟩ := EntityCache.exists_schema_of_load hload
  have hmem := h.mem
  have hopen := h.leavesOpen
  rw [hentity] at hmem hopen
  -- the link is what its declaration describes, and that one is silent on the join
  obtain ⟨d, hd, rfl⟩ := exists_describe_of_step hmem
  exact describe_manyToMany (hopen d hd name_describe.symm) h.kind

/-- Two links over one join table whose columns agree join the same rows. -/
theorem Catalog.Link.joins_comm {left right : Link} {a b targetA targetB : Target}
    {joinTable leftKey rightKey : String}
    (hleft : left.kind = .manyToMany targetB joinTable leftKey)
    (hright : right.kind = .manyToMany targetA joinTable rightKey)
    (hleftKey : left.foreignKey = rightKey) (hrightKey : right.foreignKey = leftKey)
    (db : Database) (o t : Row) :
    left.Joins db a b o t ↔ right.Joins db b a t o := by
  -- which side a key is compared from makes no difference
  have hsame : ∀ {x y : Option Key}, SameKey x y → SameKey y x :=
    fun ⟨key, hx, hy⟩ => ⟨key, hy, hx⟩
  simp only [Link.Joins, hleft, hright, hleftKey, hrightKey]
  constructor
  · rintro ⟨j, hj, howner, htarget⟩
    exact ⟨j, hj, hsame htarget, hsame howner⟩
  · rintro ⟨j, hj, htarget, howner⟩
    exact ⟨j, hj, hsame howner, hsame htarget⟩

/-- The two sides of a link over a join table that is left to the conventions: each names the key of
the owner as the other one names the key of the target, and the join table by the name of the owner
and the table of the target. So they have one join table, and join the same rows, if both entities
have the tables that go by their names. If one of them has, and the table of the other one comes on
the same side of it as the one that goes by its name, then they have one join table only if it is
that one. -/
theorem both_sides_of_join {provider : Provider} {identifierA identifierB : String} {a b : Entity}
    {left right : Link} {leftTable leftKey rightTable rightKey : String}
    (hloadA : Entity.load provider identifierA = .ok a)
    (hloadB : Entity.load provider identifierB = .ok b)
    (hleft : a.JoinsByConvention left b.asTarget leftTable leftKey)
    (hright : b.JoinsByConvention right a.asTarget rightTable rightKey) :
    left.foreignKey = rightKey ∧ right.foreignKey = leftKey ∧
      leftTable = conventionalJoinTable a.name.tableName b.table ∧
      rightTable = conventionalJoinTable b.name.tableName a.table ∧
      (a.table = a.name.tableName → b.table = b.name.tableName →
        leftTable = rightTable ∧ ∀ db o t,
          left.Joins db a.asTarget b.asTarget o t ↔ right.Joins db b.asTarget a.asTarget t o) ∧
      (b.table = b.name.tableName → (b.table < a.table ↔ b.table < a.name.tableName) →
        (leftTable = rightTable ↔ a.table = a.name.tableName)) := by
  obtain ⟨hleftTable, hleftOwn, hleftKey⟩ := hleft.names hloadA
  obtain ⟨hrightTable, hrightOwn, hrightKey⟩ := hright.names hloadB
  have hforward : left.foreignKey = rightKey := hleftOwn.trans hrightKey.symm
  have hback : right.foreignKey = leftKey := hrightOwn.trans hleftKey.symm
  refine ⟨hforward, hback, hleftTable, hrightTable, fun hplainA hplainB => ?_,
    fun hplainB hside => ?_⟩
  · have htable : leftTable = rightTable := calc
      leftTable = conventionalJoinTable a.name.tableName b.name.tableName := by
        rw [hleftTable, ← hplainB]; rfl
      _ = conventionalJoinTable b.name.tableName a.name.tableName :=
        conventionalJoinTable_comm _ _
      _ = rightTable := by rw [hrightTable, ← hplainA]; rfl
    exact ⟨htable, Link.joins_comm hleft.kind (htable ▸ hright.kind) hforward hback⟩
  · -- On this side only the table of the other entity takes part, once by its name.
    have htables : rightTable = conventionalJoinTable a.table b.table := by
      rw [hrightTable, conventionalJoinTable_comm, hplainB]
      rfl
    rw [hleftTable, htables, eq_comm]
    exact conventionalJoinTable_left_inj hside

/-! ## Posts and tags -/

namespace Blog

def post : EntityName := ⟨"post", "posts", "Blog::Post", ["blog"], "Blog Post"⟩

def tag : EntityName := ⟨"tag", "tags", "Blog::Tag", ["blog"], "Blog Tag"⟩

/-- Posts, which may be kept in a table of another name, with their tags. -/
def postSchema (table : Option String) : EntitySchema where
  typeName := post.typeName
  tableName := table
  associations := [{ name := "tags", kind := .hasAndBelongsToMany }]

/-- Tags with their posts. -/
def tagSchema : EntitySchema where
  typeName := tag.typeName
  associations := [{ name := "posts", kind := .hasAndBelongsToMany }]

def provider (table : Option String) : Provider where
  schema?
    | "Blog::Post" => some (postSchema table)
    | "Blog::Tag" => some tagSchema
    | _ => none

def posts (table : Option String) : Entity :=
  .ofSchema (provider table) post (postSchema table)

def tags (table : Option String) : Entity :=
  .ofSchema (provider table) tag tagSchema

variable (table : Option String)

private theorem load_posts : Entity.load (provider table) "blog/post" = .ok (posts table) :=
  Entity.load_of_parse?_eq_some (show EntityName.parse? "blog/post" = some post by decide +kernel)

private theorem load_tags : Entity.load (provider table) "blog/tag" = .ok (tags table) :=
  Entity.load_of_parse?_eq_some (show EntityName.parse? "blog/tag" = some tag by decide +kernel)

/-- The tags of a post over a join table. -/
def tagsOfPost (joinTable : String) : Link :=
  ⟨"tags", "post_id", .manyToMany (tags table).asTarget joinTable "tag_id"⟩

/-- The posts of a tag over a join table. -/
def postsOfTag (joinTable : String) : Link :=
  ⟨"posts", "tag_id", .manyToMany (posts table).asTarget joinTable "post_id"⟩

variable {table} {joinTable : String}

private theorem posts_joins
    (h : .step (tagsOfPost table joinTable) ∈ (posts table).catalog.associations) :
    (posts table).JoinsByConvention (tagsOfPost table joinTable) (tags table).asTarget joinTable
      "tag_id" := by
  refine ⟨h, rfl, fun d hd _ => ?_⟩
  cases List.mem_singleton.mp hd
  exact ⟨rfl, rfl, rfl⟩

private theorem tags_joins
    (h : .step (postsOfTag table joinTable) ∈ (tags table).catalog.associations) :
    (tags table).JoinsByConvention (postsOfTag table joinTable) (posts table).asTarget joinTable
      "post_id" := by
  refine ⟨h, rfl, fun d hd _ => ?_⟩
  cases List.mem_singleton.mp hd
  exact ⟨rfl, rfl, rfl⟩

end Blog

open Blog

/-- Posts and tags inside a namespace, both in the tables that go by their names. -/
theorem both_sides_of_join_in_blog :
    let left := tagsOfPost none "blog_posts_blog_tags"
    let right := postsOfTag none "blog_posts_blog_tags"
    .step left ∈ (posts none).catalog.associations ∧
      .step right ∈ (tags none).catalog.associations ∧
      ∀ db o t, left.Joins db (posts none).asTarget (tags none).asTarget o t ↔
        right.Joins db (tags none).asTarget (posts none).asTarget t o := by
  intro left right
  have hleft : .step left ∈ (posts none).catalog.associations := by decide +kernel
  have hright : .step right ∈ (tags none).catalog.associations := by decide +kernel
  have hsides := both_sides_of_join (load_posts none) (load_tags none) (posts_joins hleft)
    (tags_joins hright)
  -- neither side declares a table of its own, which is where the conventional name is the same
  have hposts : (posts none).table = (posts none).name.tableName := rfl
  have htags : (tags none).table = (tags none).name.tableName := rfl
  exact ⟨hleft, hright, (hsides.2.2.2.2.1 hposts htags).2⟩

/-- Posts that are kept in a table of another name are joined to their tags over one table, and the
tags to their posts over another one. -/
theorem join_tables_of_declared_table :
    let table := some "articles"
    let left := tagsOfPost table "blog_posts_blog_tags"
    let right := postsOfTag table "articles_blog_tags"
    Entity.load (provider table) "blog/post" = .ok (posts table) ∧
      Entity.load (provider table) "blog/tag" = .ok (tags table) ∧
      (posts table).JoinsByConvention left (tags table).asTarget "blog_posts_blog_tags" "tag_id" ∧
      (tags table).JoinsByConvention right (posts table).asTarget "articles_blog_tags" "post_id" ∧
      "blog_posts_blog_tags" ≠ "articles_blog_tags" :=
  ⟨load_posts _, load_tags _, posts_joins (by decide +kernel), tags_joins (by decide +kernel),
    by decide⟩

end FieldQuery
