import WorkflowStudio.Connector.EndpointCode
import WorkflowStudio.Lib.SecondChoice

/-! The endpoints of a connector get different codes, so that all of them are stored, exactly if
none of them comes when its slug and the hash of this slug are both in use: a third endpoint
with one slug is always refused. -/

set_option autoImplicit false

namespace WorkflowStudio.Connector

open Lib.SecondChoice

section Codes

variable (sha1 : String → BitVec 160) (connectorId : Nat)

/-- The codes are pairwise distinct and every creation is accepted. -/
structure CodesUnique (endpoints : List NewEndpoint) : Prop where
  distinct : (computedCodes sha1 connectorId endpoints).Nodup
  accepted : createEndpoints sha1 connectorId endpoints =
    .ok (computedCodes sha1 connectorId endpoints)

def slugs (endpoints : List NewEndpoint) : List String := endpoints.map slugFromMethodPath

/-- The codes are the names given out to the slugs. -/
theorem computedCodes_eq (endpoints : List NewEndpoint) :
    computedCodes sha1 connectorId endpoints =
      given (hashedSlug sha1 connectorId) (slugs endpoints) := by
  rw [given, slugs, List.foldl_map]
  rfl

theorem computedCodes_concat (endpoints : List NewEndpoint) (endpoint : NewEndpoint) :
    computedCodes sha1 connectorId (endpoints ++ [endpoint]) =
      computedCodes sha1 connectorId endpoints ++
        [computeCode sha1 connectorId (computedCodes sha1 connectorId endpoints) endpoint] := by
  simp [computedCodes]

theorem createEndpoints_concat (endpoints : List NewEndpoint) (endpoint : NewEndpoint) :
    createEndpoints sha1 connectorId (endpoints ++ [endpoint]) =
      (createEndpoints sha1 connectorId endpoints).bind fun codes =>
        createEndpoint sha1 connectorId codes endpoint := by
  simp [createEndpoints, List.foldlM_append, bind_pure]
  rfl

/-- Every creation is accepted if the codes are distinct. -/
theorem createEndpoints_of_nodup {endpoints : List NewEndpoint}
    (distinct : (computedCodes sha1 connectorId endpoints).Nodup) :
    createEndpoints sha1 connectorId endpoints = .ok (computedCodes sha1 connectorId endpoints) := by
  induction endpoints using List.reverseRecOn with
  | nil => rfl
  | append_singleton endpoints endpoint ih =>
      rw [computedCodes_concat, ← List.concat_eq_append, List.nodup_concat] at distinct
      rw [createEndpoints_concat, ih distinct.2, computedCodes_concat]
      exact if_neg distinct.1

theorem computedCodes_nodup_iff (endpoints : List NewEndpoint) :
    (computedCodes sha1 connectorId endpoints).Nodup ↔
      ¬ Clashes (hashedSlug sha1 connectorId) (slugs endpoints) := by
  rw [computedCodes_eq, given_nodup_iff]

/-- The codes are unique exactly if no slug comes when it and its hashed form are both held by
the slugs before it. -/
theorem codes_unique_iff (endpoints : List NewEndpoint) :
    CodesUnique sha1 connectorId endpoints ↔
      ¬ Clashes (hashedSlug sha1 connectorId) (slugs endpoints) := by
  rw [← computedCodes_nodup_iff]
  exact ⟨fun unique => unique.distinct, fun distinct =>
    ⟨distinct, createEndpoints_of_nodup sha1 connectorId distinct⟩⟩

/-- Three endpoints with one slug, and whatever comes with them, are not all accepted. -/
theorem not_codesUnique_of_thrice {endpoints : List NewEndpoint} {slug : String}
    (thrice : [slug, slug, slug].Sublist (slugs endpoints)) :
    ¬ CodesUnique sha1 connectorId endpoints := fun unique =>
  (computedCodes_nodup_iff sha1 connectorId endpoints).mp unique.distinct
    (clashes_of_thrice thrice)

end Codes

/-- Paths that differ in slashes only have one slug, and the third of them is refused, whatever
the hash is. -/
theorem third_endpoint_refused :
    ¬ ∃ (sha1 : String → BitVec 160) (connectorId : Nat),
      CodesUnique sha1 connectorId
        [⟨some .get, some "/users"⟩, ⟨some .get, some "/users/"⟩, ⟨some .get, some "//users"⟩] := by
  rintro ⟨sha1, connectorId, unique⟩
  have thrice : ["get_users", "get_users", "get_users"].Sublist
      (slugs [⟨some .get, some "/users"⟩, ⟨some .get, some "/users/"⟩,
        ⟨some .get, some "//users"⟩]) := by decide
  exact not_codesUnique_of_thrice sha1 connectorId thrice unique

end WorkflowStudio.Connector
