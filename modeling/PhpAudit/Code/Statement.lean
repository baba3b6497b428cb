import PhpAudit.Code.Expression

/-!
Statements and blocks. A block is a sequence of statements; comments and declarations are no statements, so
neighbours in a block are neighbours in execution.
-/

namespace PhpAudit

inductive Statement where
  | expression (expression : Expression) (span : Span)
  /-- Any other statement: the expressions that are its own, and the blocks nested in it. -/
  | compound (expressions : List Expression) (blocks : List (List Statement)) (span : Span)
deriving Repr, Inhabited

abbrev Block := List Statement

namespace Statement

def span : Statement → Span
  | expression _ span | compound _ _ span => span

/-- The expressions that belong to the statement itself and to none of its blocks. -/
def ownExpressions : Statement → List Expression
  | expression e _ => [e]
  | compound expressions _ _ => expressions

def blocks : Statement → List Block
  | expression _ _ => []
  | compound _ blocks _ => blocks

def expression? : Statement → Option Expression
  | expression e _ => some e
  | compound _ _ _ => none

/-- The variable and the value of a statement that is one assignment to a plain variable. -/
def binding? (statement : Statement) : Option (String × Expression) :=
  statement.expression?.bind Expression.binding?

/-- The statement gives the variable a new value. -/
def rebinds (statement : Statement) (variableName : String) : Bool :=
  match statement.binding? with
  | some (name, _) => name == variableName
  | none => false

mutual

def reads (variableName : String) : Statement → Nat
  | expression e _ => e.reads variableName
  | compound expressions blocks _ => Expression.readsAll variableName expressions + blocksReads variableName blocks

def blockReads (variableName : String) : List Statement → Nat
  | [] => 0
  | statement :: rest => reads variableName statement + blockReads variableName rest

def blocksReads (variableName : String) : List (List Statement) → Nat
  | [] => 0
  | block :: rest => blockReads variableName block + blocksReads variableName rest

end

mutual

/-- All blocks inside the statement, each before the blocks nested in it. -/
def innerBlocks : Statement → List (List Statement)
  | expression _ _ => []
  | compound _ blocks _ => innerBlocksOf blocks

def innerBlocksIn : List Statement → List (List Statement)
  | [] => []
  | statement :: rest => innerBlocks statement ++ innerBlocksIn rest

def innerBlocksOf : List (List Statement) → List (List Statement)
  | [] => []
  | block :: rest => (block :: innerBlocksIn block) ++ innerBlocksOf rest

end

end Statement

namespace Block

def reads (variableName : String) (block : Block) : Nat := Statement.blockReads variableName block

/-- The blocks nested in a block at any depth. -/
def nested (block : Block) : List Block := Statement.innerBlocksIn block

/-- The block and all blocks nested in it, outermost first. -/
def all (block : Block) : List Block := block :: Block.nested block

/-- The reads of a variable in these statements up to and including the first that gives it a new value, and
whether there is one. -/
def readsUntilRebound (variableName : String) : Block → Nat × Bool
  | [] => (0, false)
  | statement :: rest =>
    if statement.rebinds variableName then (statement.reads variableName, true)
    else
      let (later, rebound) := readsUntilRebound variableName rest
      (statement.reads variableName + later, rebound)

/-- The reads of the value that the statement at `index` gives to a variable, within the block. The flag is
false if the block ends with that value still in place. -/
def readsOfBinding (block : Block) (index : Nat) (variableName : String) : Nat × Bool :=
  readsUntilRebound variableName (block.drop (index + 1))

end Block

end PhpAudit
