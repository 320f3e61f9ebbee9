import Mathlib.Algebra.Group.Nat.Defs
import WorkflowStudio.Lib.Trim

/-! The code of an endpoint: a slug of its method and path, with a short hash of the slug
where another endpoint of the connector has that code. -/

set_option autoImplicit false

namespace WorkflowStudio.Connector

open Lib

inductive HttpMethod where
  | get
  | post
  | put
  | patch
  | delete
  | head
  | options
  deriving DecidableEq

def HttpMethod.text : HttpMethod → String
  | .get => "GET"
  | .post => "POST"
  | .put => "PUT"
  | .patch => "PATCH"
  | .delete => "DELETE"
  | .head => "HEAD"
  | .options => "OPTIONS"

/-- What an endpoint is created with. -/
structure NewEndpoint where
  method : Option HttpMethod
  path : Option String
  deriving DecidableEq

/-- `str.lower`, as far as the letters of a slug are concerned: besides the capitals there are
two other letters that it takes to one of these. -/
def lowerLetter (letter : Char) : List Char :=
  if letter = '\u212a' then ['k']
  else if letter = '\u0130' then ['i', '\u0307']
  else [letter.toLower]

def isSlugLetter (letter : Char) : Bool :=
  ('a' ≤ letter && letter ≤ 'z') || ('0' ≤ letter && letter ≤ '9')

/-- `_NON_ALNUM_RE.sub("_", raw)`; within a run its first letter is replaced already. -/
def replaceRuns : Bool → List Char → List Char
  | _, [] => []
  | within, letter :: rest =>
      if isSlugLetter letter then letter :: replaceRuns false rest
      else if within then replaceRuns true rest
      else '_' :: replaceRuns true rest

/-- `_slug_from_method_path`. -/
def slugFromMethodPath (endpoint : NewEndpoint) : String :=
  let method := (endpoint.method.map HttpMethod.text).getD ""
  let raw := (method ++ "_" ++ endpoint.path.getD "").toList.flatMap lowerLetter
  let raw := raw.filter fun letter => letter != '\x7b' && letter != '\x7d'
  let slug := trim (· == '_') (replaceRuns false raw)
  if slug = [] then "endpoint" else String.ofList slug

def hexdigest (digest : BitVec 160) : List Char :=
  (List.range 40).map fun position => Nat.digitChar (digest.toNat / 16 ^ (39 - position) % 16)

section Connector

variable (sha1 : String → BitVec 160) (connectorId : Nat)

/-- The slug with the first six digits of a hash that is made from it alone. -/
def hashedSlug (baseSlug : String) : String :=
  baseSlug ++ "_" ++
    String.ofList ((hexdigest (sha1 (toString connectorId ++ ":" ++ baseSlug))).take 6)

/-- `_compute_code`, given the codes of the other endpoints of the connector. -/
def computeCode (codes : List String) (endpoint : NewEndpoint) : String :=
  let baseSlug := slugFromMethodPath endpoint
  if baseSlug ∈ codes then hashedSlug sha1 connectorId baseSlug else baseSlug

/-- Create an endpoint; `UNIQUE(connector_id, code)` may refuse it. -/
def createEndpoint (codes : List String) (endpoint : NewEndpoint) : Except String (List String) :=
  let code := computeCode sha1 connectorId codes endpoint
  if code ∈ codes then .error "An endpoint with this code already exists for this connector."
  else .ok (codes ++ [code])

def createEndpoints (endpoints : List NewEndpoint) : Except String (List String) :=
  endpoints.foldlM (createEndpoint sha1 connectorId) []

/-- The codes that are computed one after the other. -/
def computedCodes (endpoints : List NewEndpoint) : List String :=
  endpoints.foldl (fun codes endpoint => codes ++ [computeCode sha1 connectorId codes endpoint]) []

end Connector

end WorkflowStudio.Connector
