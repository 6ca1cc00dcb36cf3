import PlZero.Stmt

/-! # Parts of programs

What occurs in a program, at any depth: its statements, and the expressions that these evaluate
with all expressions inside. A part of a part is a part.
-/

namespace PlZero

/-- An expression and the expressions inside it. -/
def Expr.parts : Expr → List Expr
  | .binary left op right => .binary left op right :: (left.parts ++ right.parts)
  | .not operand => .not operand :: operand.parts
  | .ident name => [.ident name]
  | .int value => [.int value]
  | .bool value => [.bool value]
  | .str text => [.str text]

mutual

/-- A statement and the statements inside it. -/
def Stmt.parts : Stmt → List Stmt
  | .assign name value => [.assign name value]
  | .branch condition yes no =>
      .branch condition yes no :: (Block.parts yes ++ Block.parts no)
  | .loop condition body => .loop condition body :: Block.parts body
  | .print value => [.print value]

/-- The statements of a block and the statements inside them. -/
def Block.parts : Block → List Stmt
  | [] => []
  | first :: others => first.parts ++ Block.parts others

end

/-- The expression that a statement evaluates. -/
def Stmt.subject : Stmt → Expr
  | .assign _ value => value
  | .branch condition _ _ => condition
  | .loop condition _ => condition
  | .print value => value

/-- The blocks that a statement may run. -/
def Stmt.blocks : Stmt → List Block
  | .branch _ yes no => [yes, no]
  | .loop _ body => [body]
  | .assign _ _ | .print _ => []

/-- The expressions that occur in a statement. -/
def Stmt.exprs (stmt : Stmt) : List Expr := stmt.parts.flatMap fun part => part.subject.parts

/-- The expressions that occur in a block. -/
def Block.exprs (block : Block) : List Expr :=
  block.parts.flatMap fun stmt => stmt.subject.parts

theorem Block.exprs_cons (first : Stmt) (others : Block) :
    Block.exprs (first :: others) = first.exprs ++ Block.exprs others := by
  rw [Block.exprs, Block.parts, List.flatMap_append]
  rfl

theorem Stmt.exprs_branch (condition : Expr) (yes no : Block) :
    Stmt.exprs (.branch condition yes no) = condition.parts ++ (yes.exprs ++ no.exprs) := by
  rw [Stmt.exprs, Stmt.parts, List.flatMap_cons, List.flatMap_append]
  rfl

theorem Stmt.exprs_loop (condition : Expr) (body : Block) :
    Stmt.exprs (.loop condition body) = condition.parts ++ body.exprs := by
  rw [Stmt.exprs, Stmt.parts, List.flatMap_cons]
  rfl

/-- A variable is read in a block. -/
def Block.Reads (block : Block) (name : String) : Prop := .ident name ∈ block.exprs

/-- A variable is the target of an assignment in a block. -/
def Block.Assigns (block : Block) (name : String) : Prop :=
  ∃ value, .assign name value ∈ block.parts

namespace Block

variable {block inner : Block} {stmt part : Stmt} {value : Expr}

theorem mem_exprs (hstmt : stmt ∈ parts block) (hvalue : value ∈ stmt.subject.parts) :
    value ∈ exprs block :=
  List.mem_flatMap.mpr ⟨stmt, hstmt, hvalue⟩

theorem mem_parts_of_mem (hstmt : stmt ∈ block) : stmt ∈ parts block := by
  induction block with
  | nil => cases hstmt
  | cons first others ih =>
      rw [parts]
      rcases List.mem_cons.mp hstmt with rfl | hothers
      · exact List.mem_append_left _ (by cases stmt <;> exact List.mem_cons_self)
      · exact List.mem_append_right _ (ih hothers)

end Block

theorem Stmt.parts_subset_of_mem_blocks {stmt : Stmt} {inner : Block}
    (hinner : inner ∈ stmt.blocks) : Block.parts inner ⊆ stmt.parts := by
  cases stmt with
  | assign name value => cases hinner
  | print value => cases hinner
  | branch condition yes no =>
      rw [parts]
      rcases List.mem_cons.mp hinner with rfl | hinner
      · exact List.subset_cons_of_subset _ (List.subset_append_left _ _)
      · obtain rfl := List.mem_singleton.mp hinner
        exact List.subset_cons_of_subset _ (List.subset_append_right _ _)
  | loop condition body =>
      obtain rfl := List.mem_singleton.mp hinner
      rw [parts]
      exact List.subset_cons_self _ _

mutual

theorem Stmt.parts_subset (stmt : Stmt) {part : Stmt} (hpart : part ∈ stmt.parts) :
    part.parts ⊆ stmt.parts := by
  cases stmt with
  | assign name value =>
      obtain rfl := List.mem_singleton.mp hpart
      exact List.Subset.refl _
  | print value =>
      obtain rfl := List.mem_singleton.mp hpart
      exact List.Subset.refl _
  | branch condition yes no =>
      rw [Stmt.parts] at hpart
      rcases List.mem_cons.mp hpart with rfl | hpart
      · exact List.Subset.refl _
      · refine List.Subset.trans ?_ (List.subset_cons_self _ _)
        rcases List.mem_append.mp hpart with hyes | hno
        · exact List.subset_append_of_subset_left _ (Block.parts_subset yes hyes)
        · exact List.subset_append_of_subset_right _ (Block.parts_subset no hno)
  | loop condition body =>
      rw [Stmt.parts] at hpart
      rcases List.mem_cons.mp hpart with rfl | hpart
      · exact List.Subset.refl _
      · exact List.subset_cons_of_subset _ (Block.parts_subset body hpart)

/-- A part of a part is a part. -/
theorem Block.parts_subset (block : Block) {part : Stmt} (hpart : part ∈ block.parts) :
    part.parts ⊆ block.parts := by
  cases block with
  | nil => cases hpart
  | cons first others =>
      rw [Block.parts] at hpart ⊢
      rcases List.mem_append.mp hpart with hfirst | hothers
      · exact List.subset_append_of_subset_left _ (Stmt.parts_subset first hfirst)
      · exact List.subset_append_of_subset_right _ (Block.parts_subset others hothers)

end

/-- The statements of a block that a part may run are parts. -/
theorem Block.mem_parts_of_mem_blocks {block inner : Block} {stmt part : Stmt}
    (hstmt : stmt ∈ block.parts) (hinner : inner ∈ stmt.blocks) (hpart : part ∈ inner) :
    part ∈ block.parts :=
  Block.parts_subset block hstmt
    (Stmt.parts_subset_of_mem_blocks hinner (Block.mem_parts_of_mem hpart))

end PlZero
