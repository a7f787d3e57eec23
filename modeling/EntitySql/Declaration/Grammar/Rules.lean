import EntitySql.Declaration.Grammar.Item
import EntitySql.Declaration.Grammar.Statement

namespace EntitySql.Grammar

/-- The rule for phrases of a kind, given a reader for those inside them. -/
def rule (read : Reader) : Reader
  | .expression braces => expressionRule read braces
  | .operand braces => operandRule read braces
  | .operations braces base left => operationsRule read braces base left
  | .branch => branchRule read
  | .statements => statementsRule read
  | .type several => typeRule read several
  | .argument => argument read *> pure .plain
  | .parameter => parameter read *> pure .plain
  | .pattern => patternRule read
  | .patterns => patternsRule read
  | .item => itemRule read
  | .members => membersRule read
  | .imports rooted => importsRule read rooted

/-- Reads phrases that hold others at most to some depth. -/
def readWithin : Nat → Reader
  | 0, _ => failure
  | k + 1, phrase => rule (readWithin k) phrase

def depthOf (ts : List Token) : Nat := 16 * Token.total ts + 64

def read : Reader := fun phrase => do readWithin (depthOf (← get)) phrase

end EntitySql.Grammar
