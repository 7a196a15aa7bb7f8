import McFront.Number.Binary64
import McFront.Text.Location
import McFront.Tree.Operation
import McFront.Ty

set_option autoImplicit false

namespace McFront

inductive Kind where
  | program | var | const | val | param | func
deriving DecidableEq

namespace Kind

def all : List Kind := [program, var, const, val, param, func]

def name : Kind → String
  | program => "program"
  | var => "variable"
  | const => "constant"
  | val => "value"
  | param => "parameter"
  | func => "function"

def isPlace : Kind → Bool
  | var | param => true
  | _ => false

end Kind

-- What a declared name stands for. The place of its declaration tells it from all others.
structure Entity where
  kind : Kind
  name : String
  type : Ty
  location : Location
deriving DecidableEq

inductive Expr where
  | bool (value : Bool) (type : Ty) (location : Location)
  | int (value : Int) (type : Ty) (location : Location)
  | float (value : Binary64) (type : Ty) (location : Location)
  | char (value : Char) (type : Ty) (location : Location)
  | name (spelled : String) (entity : Entity) (type : Ty) (location : Location)
  | unary (operation : UnaryOp) (operand : Expr) (type : Ty) (location : Location)
  | binary (operation : BinaryOp) (left right : Expr) (type : Ty) (location : Location)
  | call (callee : Expr) (arguments : List Expr) (type : Ty) (location : Location)
  | index (base index : Expr) (type : Ty) (location : Location)
  | cast (source : Expr) (type : Ty) (location : Location)
  | assign (target value : Expr) (type : Ty) (location : Location)
  | conditional (condition first second : Expr) (type : Ty) (location : Location)
  | conversion (tag : Conversion) (source : Expr) (type : Ty) (location : Location)

namespace Expr

def type : Expr → Ty
  | bool _ type _ | int _ type _ | float _ type _ | char _ type _ | name _ _ type _
  | unary _ _ type _ | binary _ _ _ type _ | call _ _ type _ | index _ _ type _ | cast _ type _
  | assign _ _ type _ | conditional _ _ _ type _ | conversion _ _ type _ => type

def location : Expr → Location
  | bool _ _ place | int _ _ place | float _ _ place | char _ _ place | name _ _ _ place
  | unary _ _ _ place | binary _ _ _ _ place | call _ _ _ place | index _ _ _ place
  | cast _ _ place | assign _ _ _ place | conditional _ _ _ _ place | conversion _ _ _ place => place

end Expr

mutual
inductive Stmt where
  | block (statements : List Stmt)
  | when (condition : Expr) (body : Stmt)
  | ifElse (condition : Expr) (first second : Stmt)
  | whileLoop (condition : Expr) (body : Stmt)
  | breakLoop
  | continueLoop
  | returnValue (value : Expr)
  | declare (declaration : Declaration)
  | evaluate (expr : Expr)
-- A function whose body is missing is a prototype. The program holds the outermost declarations.
inductive Declaration where
  | object (entity : Entity) (initial : Option Expr)
  | prototype (entity : Entity) (parameters : List Declaration)
  | function (entity : Entity) (parameters : List Declaration) (body : Stmt)
  | program (declarations : List Declaration)
end

namespace Declaration

def entity? : Declaration → Option Entity
  | object entity _ | prototype entity _ | function entity _ _ => some entity
  | program _ => none

def parameters : Declaration → List Declaration
  | prototype _ parameters | function _ parameters _ => parameters
  | _ => []

def result? : Declaration → Option Ty
  | prototype entity _ | function entity _ _ => entity.type.signature?.map Prod.snd
  | _ => none

end Declaration
end McFront
