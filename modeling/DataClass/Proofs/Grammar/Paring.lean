import DataClass.Proofs.Grammar.Completeness.Stmt
import Mathlib.Data.List.Infix
namespace DataClass

namespace TokenKind

/-! Among the tokens a program is written with, none is left that could be left out. Whether a token
could be depends on what stands in front of it and behind it, so this is said of tokens at a place first
and then, for the parts of a program, of tokens wherever they stand. -/

/-- Tokens that write out no default and nothing that means nothing. -/
structure Pared (kinds : List TokenKind) : Prop where
  hidden : .keyword .privWord ∉ kinds
  shownImport : ¬ [.keyword .pubWord, .keyword .importWord] <:+: kinds
  shownInitializer : ¬ [.keyword .pubWord, .keyword .initWord] <:+: kinds
  returnsNothing : ¬ [.punctuation .rightParen, .punctuation .colon, .keyword .voidWord,
    .punctuation .leftBrace] <:+: kinds
  otherwise : ∀ only : Stmt, only.Shaped → Layout.isChoice only = true →
    ¬ .keyword .elseWord :: braced only.kinds <:+: kinds

/-- Tokens that are written wherever they stand. -/
def isFixed : TokenKind → Bool
  | .keyword .privWord | .keyword .pubWord | .keyword .voidWord | .keyword .elseWord => false
  | _ => true

/-- Whether the tokens in front are those of a return type. -/
def ReturnsNext (before : List TokenKind) : Prop :=
  [.punctuation .rightParen, .punctuation .colon] <:+ before

/-- Whether the token has to be written where it stands. -/
def Fits (before : List TokenKind) : TokenKind → List TokenKind → Prop
  | .keyword .privWord, _ => False
  | .keyword .pubWord, after =>
      after.head? ≠ some (.keyword .importWord) ∧ after.head? ≠ some (.keyword .initWord)
  | .keyword .voidWord, _ => ¬ ReturnsNext before
  | .keyword .elseWord, after => ∀ only : Stmt, only.Shaped → Layout.isChoice only = true →
      ¬ braced only.kinds <+: after
  | _, _ => True

/-- Each of the tokens has to be written, between those in front and those behind. -/
def SettledIn (before : List TokenKind) : List TokenKind → List TokenKind → Prop
  | [], _ => True
  | kind :: rest, after => Fits before kind (rest ++ after) ∧ SettledIn (before ++ [kind]) rest after

/-- The tokens have to be written wherever they stand. -/
def Settled (kinds : List TokenKind) : Prop := ∀ before after, SettledIn before kinds after

section
variable {before after kinds first second : List TokenKind} {kind : TokenKind}

theorem fits_of_isFixed (fixed : kind.isFixed = true) : Fits before kind after := by
  cases kind with
  | keyword word => cases word <;> trivial
  | _ => trivial

theorem settledIn_append : SettledIn before (first ++ second) after ↔
    SettledIn before first (second ++ after) ∧ SettledIn (before ++ first) second after := by
  induction first generalizing before with
  | nil => simp [SettledIn]
  | cons kind rest ih => simp [SettledIn, ih, and_assoc]

theorem settled_nil : Settled [] := fun _ _ => trivial

theorem Settled.append (here : Settled first) (behind : Settled second) :
    Settled (first ++ second) := fun _ _ => settledIn_append.mpr ⟨here _ _, behind _ _⟩

theorem Settled.cons (later : Settled kinds) (fixed : kind.isFixed = true) :
    Settled (kind :: kinds) := fun _ _ => ⟨fits_of_isFixed fixed, later _ _⟩

theorem settled_single (fixed : kind.isFixed = true) : Settled [kind] := settled_nil.cons fixed

theorem settled_of_isFixed (fixed : ∀ kind ∈ kinds, kind.isFixed = true) : Settled kinds := by
  induction kinds with
  | nil => exact settled_nil
  | cons kind rest ih =>
      obtain ⟨here, later⟩ := List.forall_mem_cons.mp fixed
      exact (ih later).cons here

theorem Settled.braced (inside : Settled kinds) : Settled (braced kinds) :=
  (inside.append (settled_single rfl)).cons rfl

theorem settled_flatMap {α : Type} {values : List α} {kinds : α → List TokenKind}
    (each : ∀ value ∈ values, Settled (kinds value)) : Settled (values.flatMap kinds) := by
  induction values with
  | nil => exact settled_nil
  | cons value rest ih =>
      obtain ⟨here, later⟩ := List.forall_mem_cons.mp each
      exact here.append (ih later)

theorem settled_afterCommas {parts : List (List TokenKind)}
    (each : ∀ part ∈ parts, Settled (.punctuation .comma :: part)) : Settled (afterCommas parts) :=
  settled_flatMap each

theorem settled_parenthesized {parts : List (List TokenKind)}
    (each : ∀ part ∈ parts, Settled part) : Settled (parenthesized parts) := by
  refine Settled.cons (.append ?_ (settled_single rfl)) rfl
  cases parts with
  | nil => exact settled_nil
  | cons first rest =>
      obtain ⟨here, later⟩ := List.forall_mem_cons.mp each
      exact here.append (settled_afterCommas fun part inside => (later part inside).cons rfl)

theorem settled_pathKinds (path : List String) : Settled (pathKinds path) := by
  cases path with
  | nil => exact settled_nil
  | cons first rest =>
      exact (settled_flatMap fun segment _ => (settled_single rfl).cons rfl).cons rfl

/-- Each of some settled tokens fits where it stands. -/
theorem Settled.fits (settled : Settled kinds) (lead : List TokenKind)
    (inside : lead ++ kind :: second <:+: kinds) :
    ∃ front back, Fits (front ++ lead) kind (second ++ back) := by
  obtain ⟨front, back, rfl⟩ := inside
  have there := settled [] []
  rw [List.append_assoc, List.append_assoc, ← List.append_assoc front] at there
  obtain ⟨fits, _⟩ := (settledIn_append.mp there).2
  exact ⟨front, back, by simpa using fits⟩

theorem Settled.pared (settled : Settled kinds) : Pared kinds where
  hidden inside := by
    obtain ⟨_, _, fits⟩ := settled.fits [] ((List.singleton_infix_iff _ _).mpr inside)
    exact fits
  shownImport inside := by
    obtain ⟨_, _, fits⟩ := settled.fits [] inside
    exact fits.1 rfl
  shownInitializer inside := by
    obtain ⟨_, _, fits⟩ := settled.fits [] inside
    exact fits.2 rfl
  returnsNothing inside := by
    obtain ⟨front, _, fits⟩ := settled.fits [.punctuation .rightParen, .punctuation .colon] inside
    exact fits (List.suffix_append front _)
  otherwise only shaped choice inside := by
    obtain ⟨_, back, fits⟩ := settled.fits [] inside
    exact fits only shaped choice (List.prefix_append _ back)

end

end TokenKind

open TokenKind

namespace TypeRef

variable {type : TypeRef}

theorem not_returnsNext_of_mark {mark : TokenKind} (other : mark ≠ .punctuation .colon)
    (before : List TokenKind) : ¬ ReturnsNext (before ++ [mark]) := by
  simp [ReturnsNext, ← List.reverse_prefix, other.symm]

theorem not_returnsNext_of_name (name : String) (before : List TokenKind) :
    ¬ ReturnsNext (before ++ [.identifier name, .punctuation .colon]) := by
  simp [ReturnsNext, ← List.reverse_prefix]

/-- A type stays behind tokens that do not ask for a return type. -/
theorem settled_behind {lead : List TokenKind} (fixed : ∀ kind ∈ lead, kind.isFixed = true)
    (opens : ∀ before, ¬ ReturnsNext (before ++ lead))
    (valued : type.isVoid = false → Settled type.kinds) : Settled (lead ++ type.kinds) := by
  cases type with
  | void span =>
      intro before after
      exact settledIn_append.mpr ⟨settled_of_isFixed fixed _ _, opens before, trivial⟩
  | _ => exact (settled_of_isFixed fixed).append (valued rfl)

theorem Shaped.settled (shaped : type.Shaped) : type.isVoid = false → Settled type.kinds := by
  induction shaped with
  | @named span path arguments segments inside ih =>
      intro _
      have behind (mark : TokenKind) (fixed : mark.isFixed = true)
          (other : mark ≠ .punctuation .colon) :
          ∀ argument ∈ arguments, Settled (mark :: argument.kinds) := fun argument held =>
        settled_behind (by simpa using fixed) (not_returnsNext_of_mark other) (ih argument held)
      rw [kinds, kindsAll_eq_map]
      refine (settled_pathKinds path).append ?_
      cases arguments with
      | nil => exact settled_nil
      | cons first rest =>
          have here := behind (.operator .lt) rfl (by simp) first List.mem_cons_self
          have later : Settled (afterCommas (rest.map kinds)) :=
            settled_afterCommas (List.forall_mem_map.mpr fun argument held =>
              behind _ rfl (by simp) argument (List.mem_cons_of_mem _ held))
          simpa [angled, separated] using here.append (later.append (settled_single rfl))
  | array span value inside ih =>
      intro _
      rw [kinds]
      exact (ih value).append ((settled_single rfl).cons rfl)
  | void span =>
      intro value
      cases value

/-- A type behind the name of what has it. -/
theorem Shaped.settled_named (shaped : type.Shaped) (name : String) :
    Settled (.identifier name :: .punctuation .colon :: type.kinds) :=
  settled_behind (by simp [isFixed]) (not_returnsNext_of_name name) shaped.settled

theorem settled_colonKinds {written : Option TypeRef} (shaped : ∀ type ∈ written, type.Shaped)
    (name : String) : Settled (.identifier name :: colonKinds written) := by
  cases written with
  | none => exact settled_single rfl
  | some type => exact (shaped type rfl).settled_named name

theorem Shaped.settled_returnKinds (shaped : type.Shaped) : Settled type.returnKinds := by
  unfold returnKinds
  split
  · exact settled_nil
  · next value => exact (shaped.settled (Bool.eq_false_iff.mpr value)).cons rfl

end TypeRef

namespace Expr

mutual

theorem settled : (expr : Expr) → Settled expr.kinds
  | .int _ _ | .float _ _ | .string _ _ | .null _ | .ident _ _ | .this _ => by
      rw [kinds]
      exact settled_single rfl
  | .bool _ value => by
      rw [kinds]
      cases value <;> exact settled_single rfl
  | .field _ base _ => by
      rw [kinds]
      exact (settled base).append ((settled_single rfl).cons rfl)
  | .call _ callee arguments => by
      rw [kinds]
      exact (settled callee).append (settled_parenthesized (settledAll arguments))
  | .methodCall _ receiver _ arguments => by
      rw [kinds]
      exact (settled receiver).append
        (((settled_parenthesized (settledAll arguments)).cons rfl).cons rfl)
  | .unary _ _ operand => by
      rw [kinds]
      exact (settled operand).cons rfl
  | .binary _ left _ right => by
      rw [kinds]
      exact (settled left).append ((settled right).cons rfl)
  | .paren _ inner => by
      rw [kinds]
      exact ((settled inner).append (settled_single rfl)).cons rfl

theorem settledAll : (exprs : List Expr) → ∀ part ∈ kindsAll exprs, Settled part
  | [] => nofun
  | expr :: rest => List.forall_mem_cons.mpr ⟨settled expr, settledAll rest⟩

end

theorem settled_equalsKinds (value : Option Expr) : Settled (equalsKinds value) := by
  cases value with
  | none => exact settled_nil
  | some value => exact value.settled.cons rfl

theorem settled_optionKinds (value : Option Expr) : Settled (optionKinds value) := by
  cases value with
  | none => exact settled_nil
  | some value => exact value.settled

end Expr

namespace Stmt

open Grammar Grammar.Reader in
/-- Two bodies in braces that begin the same tokens are the same body. -/
theorem erase_eq_of_braced {body other : List Stmt} {rest back : List TokenKind}
    (shaped : ∀ stmt ∈ body, stmt.Shaped) (shapedOther : ∀ stmt ∈ other, stmt.Shaped)
    (same : braced (bodyKinds body) ++ rest = braced (bodyKinds other) ++ back) :
    body.map erase = other.map erase := by
  let cursor := Cursor.ofTokens ((braced (bodyKinds body) ++ rest).map fun kind => ⟨kind, .origin⟩)
  have ahead : cursor.kinds = braced (bodyKinds body) ++ rest := by
    simp [cursor, Cursor.kinds, Cursor.ofTokens, Function.comp_def]
  obtain ⟨_, _, reads, _, _, here⟩ := takes_block shaped ahead
  obtain ⟨_, _, readsOther, _, _, there⟩ := takes_block shapedOther (ahead.trans same)
  cases reads.symm.trans readsOther
  exact here.symm.trans there

theorem isChoice_erase (stmt : Stmt) : Layout.isChoice stmt.erase = Layout.isChoice stmt := by
  cases stmt <;> simp [Layout.isChoice]

theorem settled_otherwiseKinds {elseBody : Option (List Stmt)}
    (shaped : ∀ body, elseBody = some body → ∀ stmt ∈ body, stmt.Shaped)
    (inside : ∀ body, elseBody = some body → ∀ stmt ∈ body, Settled stmt.kinds) :
    Settled (otherwiseKinds elseBody) := by
  cases elseBody with
  | none => exact settled_nil
  | some body =>
      intro before after
      rcases elseKinds_cases body with ⟨only, rfl, choice, same⟩ | ⟨other, same⟩ <;>
        rw [otherwiseKinds, same]
      · -- an `if` stands behind the `else`, and no brace
        refine ⟨fun nested _ _ front => ?_, inside _ rfl only List.mem_cons_self _ _⟩
        obtain ⟨rest, starts⟩ := exists_kinds_of_choice choice
        rw [starts, List.cons_append, braced, List.cons_prefix_cons] at front
        cases front.1
      · -- braces around an `if` alone would be read as this body, which is no `if` alone
        refine ⟨fun nested good isNested front => ?_, ?_⟩
        · obtain ⟨back, cut⟩ := front
          rw [← List.append_nil nested.kinds] at cut
          have same : [nested].map erase = body.map erase :=
            erase_eq_of_braced (by simpa using good) (shaped body rfl) cut
          obtain ⟨only, rfl, equal⟩ := List.map_eq_singleton_iff.mp same.symm
          rw [← isChoice_erase, ← equal, isChoice_erase] at isNested
          exact Bool.false_ne_true ((other only rfl).symm.trans isNested)
        · rw [bodyKinds_eq_flatMap]
          exact (settled_flatMap (inside body rfl)).braced _ _

theorem Shaped.settled {stmt : Stmt} (shaped : stmt.Shaped) : Settled stmt.kinds := by
  induction shaped with
  | @declare span name type value typed valued =>
      rw [kinds]
      have valued : Settled (Expr.equalsKinds value ++ [.punctuation .semicolon]) :=
        (Expr.settled_equalsKinds value).append (settled_single rfl)
      exact ((TypeRef.settled_colonKinds typed name).append valued).cons rfl
  | @assign span target value place first second =>
      rw [kinds]
      exact target.settled.append ((value.settled.append (settled_single rfl)).cons rfl)
  | @giveBack span value valued =>
      rw [kinds]
      exact ((Expr.settled_optionKinds value).append (settled_single rfl)).cons rfl
  | @choose span condition thenBody elseBody test yes no ihYes ihNo =>
      rw [kinds_choose, bodyKinds_eq_flatMap]
      have inside := (settled_flatMap ihYes).braced.append (settled_otherwiseKinds no ihNo)
      exact (condition.settled.append inside).cons rfl
  | @repeatWhile span condition body test inside ih =>
      rw [kinds, bodyKinds_eq_flatMap]
      exact (condition.settled.append (settled_flatMap ih).braced).cons rfl
  | @evaluate span expr inside =>
      rw [kinds]
      exact expr.settled.append (settled_single rfl)

end Stmt

namespace TokenKind

theorem settled_tags (tags : List Tag) : Settled (Tag.kindsAll tags) :=
  settled_flatMap fun tag _ => (settled_pathKinds tag.path).cons rfl

theorem settled_params {params : List Param} (shaped : ∀ param ∈ params, param.Shaped) :
    Settled (parenthesized (params.map Param.kinds)) :=
  settled_parenthesized (List.forall_mem_map.mpr fun param inside =>
    (shaped param inside).settled_named param.name)

/-- Modifiers stay in front of what has a visibility. -/
theorem Settled.modified {kind : TokenKind} {kinds : List TokenKind} (later : Settled (kind :: kinds))
    (tags : List Tag) (isPublic : Bool) (shown : kind ≠ .keyword .importWord)
    (started : kind ≠ .keyword .initWord) :
    Settled (modifiers tags isPublic ++ kind :: kinds) := by
  rw [modifiers, List.append_assoc]
  refine (settled_tags tags).append ?_
  cases isPublic with
  | false => exact later
  | true => exact fun before after => ⟨by simp [Fits, shown, started], later _ _⟩

end TokenKind

theorem Field.Shaped.settled {decl : Field} (shaped : decl.Shaped) : Settled decl.bareKinds := by
  have valued : Settled (Expr.equalsKinds decl.default ++ [.punctuation .semicolon]) :=
    (Expr.settled_equalsKinds decl.default).append (settled_single rfl)
  exact (TypeRef.settled_colonKinds shaped.typed decl.name).append valued

theorem Stmt.settled_body {body : List Stmt} (shaped : ∀ stmt ∈ body, stmt.Shaped) :
    Settled (braced (Stmt.bodyKinds body)) := by
  rw [bodyKinds_eq_flatMap]
  exact (settled_flatMap fun stmt inside => (shaped stmt inside).settled).braced

theorem Method.Shaped.settled {decl : Method} (shaped : decl.Shaped) : Settled decl.bareKinds :=
  ((settled_params shaped.given).append
    (shaped.typed.settled_returnKinds.append (Stmt.settled_body shaped.inside))).cons rfl

theorem Constructor.Shaped.settled {decl : Constructor} (shaped : decl.Shaped) :
    Settled decl.bareKinds :=
  (settled_params shaped.given).append (Stmt.settled_body shaped.inside)

theorem Class.settled_of_members {decl : Class}
    (inside : ∀ member ∈ decl.members, Settled member.kinds) : Settled decl.kinds := by
  rw [kinds_eq, Member.kindsAll_eq_flatMap]
  exact (((settled_flatMap inside).braced.cons rfl).cons rfl).modified _ _ (by simp) (by simp)

theorem Member.Shaped.settled {member : Member} (shaped : member.Shaped) :
    Settled member.kinds := by
  induction shaped with
  | field span inside =>
      rw [kinds]
      exact inside.settled.modified _ _ (by simp) (by simp)
  | method span inside =>
      rw [kinds]
      exact (inside.settled.cons rfl).modified _ _ (by simp) (by simp)
  | constructor span inside =>
      rw [kinds]
      exact (inside.settled.cons rfl).modified _ _ (by simp) (by simp)
  | initializer span inside =>
      rw [kinds]
      exact (Stmt.settled_body inside).cons rfl
  | nested span tagged inside ih =>
      rw [kinds]
      exact Class.settled_of_members ih

theorem Declaration.Shaped.settled {declaration : Declaration} (shaped : declaration.Shaped) :
    Settled declaration.kinds := by
  cases declaration with
  | importPath span path =>
      exact ((settled_pathKinds path).append (settled_single rfl)).cons rfl
  | type span decl =>
      exact Class.settled_of_members fun member inside => (shaped.inside member inside).settled
  | function span decl =>
      have method : decl.Shaped := shaped
      exact (method.settled.cons rfl).modified _ _ (by simp) (by simp)

/-- A program that was read is written with tokens that are all needed. -/
theorem Program.Shaped.settled {program : Program} (shaped : program.Shaped) :
    Settled program.kinds :=
  settled_flatMap fun declaration inside => (shaped declaration inside).settled

end DataClass
