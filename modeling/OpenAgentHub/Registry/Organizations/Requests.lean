import OpenAgentHub.Lib.Runs
import OpenAgentHub.Registry.Organizations.Effects

namespace Registry.Organizations

open Relational

inductive Operation where
  | createOrganization (slug displayName : String)
  | updateOrganization (slug : String) (displayName : Option String)
  | addMember (slug username role : String)
  | changeMemberRole (slug username role : String)
  | removeMember (slug username : String)
  | leaveOrganization (slug : String)
  | removeUserMemberships
  | inviteMember (slug username role : String) (ttlHours : Option Nat) (token : String)
  | acceptInvitation (token : String)
  | createTeam (slug name : String)
  | addTeamMember (slug : String) (teamId : Nat) (username : String)
  | removeTeamMember (slug : String) (teamId : Nat) (username : String)
  | createServiceAccount (slug name role : String)
  | deleteServiceAccount (slug : String) (accountId : Nat)
  | issueServiceAccountToken (slug : String) (accountId : Nat) (raw label : String) (scopes : List String)
      (expiresInDays : Option Int)

structure Request where
  actor : User
  now : Time
  operation : Operation

/-- One request in its transaction: the state to commit, or what it raised. -/
def handle (host : Host) (db : Db) (request : Request) : Except Raised Db :=
  let actor := request.actor
  let now := request.now
  match request.operation with
  | .createOrganization slug name => (createOrganization host now db actor slug name).map Prod.fst
  | .updateOrganization slug name => (updateOrganization host now db actor slug name).map Prod.fst
  | .addMember slug username role => (addMember host now db actor slug username role).map Prod.fst
  | .changeMemberRole slug username role =>
    (changeMemberRole host now db actor slug username role).map Prod.fst
  | .removeMember slug username => (removeMember host now db actor slug username).map Prod.fst
  | .leaveOrganization slug => (leaveOrganization host now db actor slug).map Prod.fst
  | .removeUserMemberships => (removeUserMemberships host now db actor).map Prod.fst
  | .inviteMember slug username role ttlHours token =>
    (inviteMember host now db actor slug username role ttlHours token).map Prod.fst
  | .acceptInvitation token => (acceptInvitation host now db actor token).map Prod.fst
  | .createTeam slug name => (createTeam host now db actor slug name).map Prod.fst
  | .addTeamMember slug teamId username => (addTeamMember host now db actor slug teamId username).map Prod.fst
  | .removeTeamMember slug teamId username =>
    (removeTeamMember host now db actor slug teamId username).map Prod.fst
  | .createServiceAccount slug name role =>
    (createServiceAccount host now db actor slug name role).map Prod.fst
  | .deleteServiceAccount slug accountId =>
    (deleteServiceAccount host now db actor slug accountId).map Prod.fst
  | .issueServiceAccountToken slug accountId raw label scopes expiresInDays =>
    (issueServiceAccountToken host now db actor slug accountId raw label scopes expiresInDays).map Prod.fst

def serve (host : Host) (db : Db) (request : Request) : Db :=
  match handle host db request with
  | .ok after => after
  | .error _ => db

def emptyStore (users : Table User) : Db := { users }

def asciiHost : Host where
  lower := String.toLower
  hashToken := id

def founder : User := { id := 1, username := "founder" }
def colleague : User := { id := 2, username := "colleague" }

def signedUp : Table User where
  rows := [founder, colleague]
  next := 3
  ids_below := by decide
  distinct := by decide

theorem serve_keeps {host : Host} {db : Db} {request : Request} (holds : Db → Prop) (before : holds db)
    (kept : ∀ after, handle host db request = .ok after → holds after) : holds (serve host db request) := by
  unfold serve
  split
  · rename_i after done
    exact kept after done
  · exact before

theorem handle_eq_serve {host : Host} {db : Db} {request : Request}
    (succeeds : (handle host db request).isOk = true) :
    handle host db request = .ok (serve host db request) := by
  unfold serve
  cases outcome : handle host db request with
  | ok after => rfl
  | error raised =>
    rw [outcome] at succeeds
    cases succeeds

end Registry.Organizations
