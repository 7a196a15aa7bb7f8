import McFront.Proofs.Parsing.Reading

set_option autoImplicit false

namespace McFront

open McFront.Parser (nestingLimit Starts)

inductive Sentence where
  | statement (stmt : Stmt)
  | block (stmt : Stmt)
  | statements (stmts : List Stmt)

inductive SentenceReading : Analyzer → Nat → Sentence → List Token → Analyzer → List Token → Prop
  where
  | block {before after : Analyzer} {depth : Nat} {stmt : Stmt} {input rest : List Token}
      (within : depth < nestingLimit)
      (inner : SentenceReading before (depth + 1) (.block stmt) input after rest) :
      SentenceReading before depth (.statement stmt) input after rest
  | when {before after : Analyzer} {depth : Nat} {token : Token} {condition : Expr} {body : Stmt}
      {input further rest : List Token} (within : depth < nestingLimit)
      (named : token.kind = .keyword .ifWord)
      (tested : ConditionReading before (depth + 1) condition input further)
      (inner : SentenceReading before (depth + 1) (.statement body) further after rest)
      (stop : ¬ Starts (.keyword .elseWord) rest) :
      SentenceReading before depth (.statement (.when condition body)) (token :: input) after rest
  | ifElse {before mid after : Analyzer} {depth : Nat} {token other : Token} {condition : Expr}
      {first second : Stmt} {input branches alternative rest : List Token}
      (within : depth < nestingLimit) (named : token.kind = .keyword .ifWord)
      (tested : ConditionReading before (depth + 1) condition input branches)
      (chosen : SentenceReading before (depth + 1) (.statement first) branches mid
        (other :: alternative))
      (divided : other.kind = .keyword .elseWord)
      (otherwise : SentenceReading mid (depth + 1) (.statement second) alternative after rest) :
      SentenceReading before depth (.statement (.ifElse condition first second)) (token :: input)
        after rest
  | whileLoop {before after : Analyzer} {depth : Nat} {token : Token} {condition : Expr}
      {body : Stmt} {input further rest : List Token} (within : depth < nestingLimit)
      (named : token.kind = .keyword .whileWord)
      (tested : ConditionReading before (depth + 1) condition input further)
      (inner : SentenceReading before.enterLoop (depth + 1) (.statement body) further after rest) :
      SentenceReading before depth (.statement (.whileLoop condition body)) (token :: input)
        after.leaveLoop rest
  | breakLoop {analyzer : Analyzer} {depth : Nat} {token semicolon : Token} {stmt : Stmt}
      {rest : List Token} (within : depth < nestingLimit)
      (named : token.kind = .keyword .breakWord)
      (closed : semicolon.kind = .punctuation .semicolon)
      (built : analyzer.breakLoop token.location = .ok stmt) :
      SentenceReading analyzer depth (.statement stmt) (token :: semicolon :: rest) analyzer rest
  | continueLoop {analyzer : Analyzer} {depth : Nat} {token semicolon : Token} {stmt : Stmt}
      {rest : List Token} (within : depth < nestingLimit)
      (named : token.kind = .keyword .continueWord)
      (closed : semicolon.kind = .punctuation .semicolon)
      (built : analyzer.continueLoop token.location = .ok stmt) :
      SentenceReading analyzer depth (.statement stmt) (token :: semicolon :: rest) analyzer rest
  | returnValue {analyzer : Analyzer} {depth : Nat} {token : Token} {value : Option Expr}
      {stmt : Stmt} {input rest : List Token} (within : depth < nestingLimit)
      (named : token.kind = .keyword .returnWord)
      (inner : ReturnReading analyzer (depth + 1) value input rest)
      (built : analyzer.returnValue value token.location = .ok stmt) :
      SentenceReading analyzer depth (.statement stmt) (token :: input) analyzer rest
  | declare {before after : Analyzer} {depth : Nat} {declaration : Declaration}
      {input rest : List Token} (within : depth < nestingLimit)
      (inner : ObjectReading before (depth + 1) declaration input after rest) :
      SentenceReading before depth (.statement (.declare declaration)) input after rest
  | evaluate {analyzer : Analyzer} {depth : Nat} {semicolon : Token} {expr : Expr}
      {input rest : List Token} (within : depth < nestingLimit)
      (inner : Reading analyzer (depth + 1) (.expression expr) input (semicolon :: rest))
      (closed : semicolon.kind = .punctuation .semicolon) :
      SentenceReading analyzer depth (.statement (.evaluate expr)) input analyzer rest
  | braces {before inside after : Analyzer} {depth : Nat} {opening closing : Token}
      {stmts : List Stmt} {input rest : List Token}
      (opened : opening.kind = .punctuation .leftBrace)
      (entered : Analysis.enter .block before = .ok () inside)
      (inner : SentenceReading inside depth (.statements stmts) input after (closing :: rest))
      (closed : closing.kind = .punctuation .rightBrace) :
      SentenceReading before depth (.block (.block stmts)) (opening :: input) after.leaveScope rest
  | noStatements {analyzer : Analyzer} {depth : Nat} {rest : List Token}
      (stop : Starts (.punctuation .rightBrace) rest) :
      SentenceReading analyzer depth (.statements []) rest analyzer rest
  | moreStatements {before mid after : Analyzer} {depth : Nat} {first : Stmt} {others : List Stmt}
      {input further rest : List Token}
      (head : SentenceReading before depth (.statement first) input mid further)
      (tail : SentenceReading mid depth (.statements others) further after rest) :
      SentenceReading before depth (.statements (first :: others)) input after rest

inductive ParametersReading (depth : Nat) :
    Analyzer → List Declaration → List Token → Analyzer → List Token → Prop where
  | one {before after : Analyzer} {named colon : Token} {name : String} {type : Ty}
      {declaration : Declaration} {input rest : List Token}
      (isName : named.kind = .identifier name) (divided : colon.kind = .punctuation .colon)
      (isType : TypeReading depth input type rest)
      (built : Analysis.parameter name type named.location before = .ok declaration after)
      (stop : ¬ Starts (.punctuation .comma) rest) :
      ParametersReading depth before [declaration] (named :: colon :: input) after rest
  | more {before mid after : Analyzer} {named colon comma : Token} {name : String} {type : Ty}
      {declaration : Declaration} {others : List Declaration} {input further rest : List Token}
      (isName : named.kind = .identifier name) (divided : colon.kind = .punctuation .colon)
      (isType : TypeReading depth input type (comma :: further))
      (built : Analysis.parameter name type named.location before = .ok declaration mid)
      (continued : comma.kind = .punctuation .comma)
      (tail : ParametersReading depth mid others further after rest) :
      ParametersReading depth before (declaration :: others) (named :: colon :: input) after rest

inductive ParameterListReading (depth : Nat) (before : Analyzer) :
    List Declaration → List Token → Analyzer → List Token → Prop where
  | empty {opening closing : Token} {rest : List Token}
      (opened : opening.kind = .punctuation .leftParen)
      (closed : closing.kind = .punctuation .rightParen) :
      ParameterListReading depth before [] (opening :: closing :: rest) before rest
  | filled {opening closing : Token} {after : Analyzer} {parameters : List Declaration}
      {input rest : List Token} (opened : opening.kind = .punctuation .leftParen)
      (present : ¬ Starts (.punctuation .rightParen) input)
      (inner : ParametersReading depth before parameters input after (closing :: rest))
      (closed : closing.kind = .punctuation .rightParen) :
      ParameterListReading depth before parameters (opening :: input) after rest

inductive HeaderReading (depth : Nat) (before : Analyzer) :
    Declaration → List Token → Analyzer → List Token → Prop where
  | header {word named arrow : Token} {name : String} {inside filled after : Analyzer}
      {parameters : List Declaration} {result : Ty} {declaration : Declaration}
      {input typed rest : List Token} (introduced : word.kind = .keyword .defWord)
      (isName : named.kind = .identifier name)
      (entered : Analysis.enter .parameters before = .ok () inside)
      (taken : ParameterListReading depth inside parameters input filled (arrow :: typed))
      (divided : arrow.kind = .punctuation .arrow) (isType : TypeReading depth typed result rest)
      (built : Analysis.function name parameters result named.location filled.leaveScope =
        .ok declaration after) :
      HeaderReading depth before declaration (word :: named :: input) after rest

inductive DeclarationReading (depth : Nat) (before : Analyzer) :
    Declaration → List Token → Analyzer → List Token → Prop where
  | object {after : Analyzer} {declaration : Declaration} {input rest : List Token}
      (inner : ObjectReading before depth declaration input after rest) :
      DeclarationReading depth before declaration input after rest
  | prototype {after : Analyzer} {declaration : Declaration} {semicolon : Token}
      {input rest : List Token}
      (header : HeaderReading depth before declaration input after (semicolon :: rest))
      (closed : semicolon.kind = .punctuation .semicolon) :
      DeclarationReading depth before declaration input after rest
  | function {declared begun after : Analyzer} {declaration function : Declaration} {body : Stmt}
      {input further rest : List Token}
      (header : HeaderReading depth before declaration input declared further)
      (begins : Analysis.beginFunction declaration declared = .ok () begun)
      (inner : SentenceReading begun depth (.block body) further after rest)
      (defined : declaration.define body = .ok function) :
      DeclarationReading depth before function input after.endFunction rest

inductive DeclarationsReading (depth : Nat) :
    Analyzer → List Declaration → List Token → Analyzer → Prop where
  | done {analyzer : Analyzer} : DeclarationsReading depth analyzer [] [] analyzer
  | more {before mid after : Analyzer} {first : Declaration} {others : List Declaration}
      {input rest : List Token} (head : DeclarationReading depth before first input mid rest)
      (tail : DeclarationsReading depth mid others rest after) :
      DeclarationsReading depth before (first :: others) input after

inductive ProgramReading : Declaration → List Token → Prop where
  | program {outer after : Analyzer} {declarations : List Declaration} {input : List Token}
      (entered : Analysis.enter .outermost .initial = .ok () outer)
      (inner : DeclarationsReading 0 outer declarations input after) :
      ProgramReading (.program declarations) input

end McFront
