/-
This file compares the sponsor and grant projections with the sponsorship contract.

Every accepted call tells all that the two tables show of what it did, so after every
run, whatever the log of it, the tables hold every sponsor and every grant as the
contract has them, and no others.
-/

import OpenSocial.Indexer.Projections
import OpenSocial.Library.Mirror
import OpenSocial.Library.Projection
import OpenSocial.Sponsorship.Records

namespace OpenSocial.Indexer

open Library Sponsorship

/-! ### What is compared -/

/-- An event of the contract as the event log has it. -/
def sponsorshipEvent : Sponsorship.Event → ProtocolEvent
  | .sponsorSet sponsor endpoint policyVersion active timestamp =>
    .sponsorship (.sponsorSet sponsor endpoint policyVersion active timestamp)
  | .sponsorDeactivated sponsor timestamp => .sponsorship (.sponsorDeactivated sponsor timestamp)
  | .userGrantSet sponsor user dailyOps expiresAt timestamp =>
    .sponsorship (.userGrantSet sponsor user dailyOps expiresAt timestamp)
  | .userGrantRevoked sponsor user timestamp =>
    .sponsorship (.userGrantRevoked sponsor user timestamp)

/-- What the table of the sponsors shows of a record. -/
def sponsorRowOf (record : SponsorRecord) : SponsorRow :=
  ⟨record.endpoint, record.policyVersion, record.active, record.registeredAt, record.updatedAt⟩

def userGrantRowOf (grant : UserGrant) : UserGrantRow :=
  ⟨grant.dailyOps, grant.expiresAt, grant.revoked, grant.updatedAt⟩

theorem sponsor_aligned (first second : Address) :
    id first = id second ↔ first.val = second.val :=
  Subtype.ext_iff

theorem grant_aligned (first second : Address × Address) :
    id first = id second ↔
      grantKey first.1.val first.2.val = grantKey second.1.val second.2.val := by
  rw [grantKey_inj, id, id, Prod.ext_iff]

def sponsorLink : Correspondence Address Address Bytes SponsorRow SponsorRecord SponsorRow where
  tableKey := id
  storeKey := Subtype.val
  aligned := sponsor_aligned
  ofRow := id
  ofRecord := sponsorRowOf

def grantLink : Correspondence (Address × Address) (Address × Address) Bytes UserGrantRow UserGrant
    UserGrantRow where
  tableKey := id
  storeKey := fun pair => grantKey pair.1.val pair.2.val
  aligned := grant_aligned
  ofRow := id
  ofRecord := userGrantRowOf

/-- Both tables mirror the contract's maps. -/
structure SponsorsMirrored (state : State) (db : Database) : Prop where
  sponsors : sponsorLink.Mirrors db.sponsors state.sponsors
  grants : grantLink.Mirrors db.userGrants state.grants

/-! ### One call -/

section Step

variable {state : State} {db : Database} {sponsor user : Address}

/-- Writing a row that shows a record, for its sponsor in both. -/
theorem SponsorsMirrored.putSponsor (mirrored : SponsorsMirrored state db) {row : SponsorRow}
    {record : SponsorRecord} (shows : row = sponsorRowOf record) :
    SponsorsMirrored (state.putSponsor sponsor record)
      { db with sponsors := db.sponsors.put sponsor row } where
  sponsors := mirrored.sponsors.put shows
  grants := mirrored.grants

theorem SponsorsMirrored.putGrant (mirrored : SponsorsMirrored state db) {row : UserGrantRow}
    {grant : UserGrant} (shows : row = userGrantRowOf grant) :
    SponsorsMirrored (state.putGrant sponsor user grant)
      { db with userGrants := db.userGrants.put (sponsor, user) row } where
  sponsors := mirrored.sponsors
  grants := mirrored.grants.put shows

/-- The time of a registration is that of the row, or of the first record. -/
theorem registeredAt_mirrored (mirrored : SponsorsMirrored state db) (sponsor : Address)
    (now : ℕ) : (db.sponsors.get sponsor).elim now SponsorRow.registeredAt =
      (state.sponsors.get sponsor.val).elim now SponsorRecord.registeredAt := by
  cases stored : state.sponsors.get sponsor.val with
  | none =>
    have absent : db.sponsors.get sponsor = none :=
      mirrored.sponsors.absent stored
    rw [absent]
    rfl
  | some record =>
    obtain ⟨row, found, shows⟩ : ∃ row, db.sponsors.get sponsor = some row ∧
        row = sponsorRowOf record :=
      mirrored.sponsors.found stored
    rw [found, shows]
    rfl

/-- Every accepted call keeps the tables and the contract together. -/
theorem sponsors_keep (sdk : Sdk) {env : Env} {operation : Operation} {after : State}
    {events : List Sponsorship.Event} (effect : Effect env state operation after events)
    {records : List LogEvent} (logs : records.map LogEvent.event = events.map sponsorshipEvent)
    (mirrored : SponsorsMirrored state db) :
    SponsorsMirrored after (records.foldl (applyEvent sdk) db) := by
  cases effect with
  | sponsorSet record authorized publishable registered updated =>
    obtain ⟨log, event, applied⟩ := foldl_applyEvent_singleton sdk db logs
    rw [applied, applyEvent, event]
    refine mirrored.putSponsor ?_
    rw [sponsorRowOf, registered, updated, ← registeredAt_mirrored mirrored]
    rfl
  | sponsorDeactivated sponsor record authorized stored =>
    obtain ⟨log, event, applied⟩ := foldl_applyEvent_singleton sdk db logs
    rw [applied, applyEvent, event]
    exact
      { sponsors := mirrored.sponsors.modify
          (fun row => { row with active := false, updatedAt := env.now }) stored
          (fun row => rfl) rfl
        grants := mirrored.grants }
  | userGrantSet grant record authorized different daily open_ standing updated stored active =>
    obtain ⟨log, event, applied⟩ := foldl_applyEvent_singleton sdk db logs
    rw [applied, applyEvent, event]
    refine mirrored.putGrant ?_
    rw [userGrantRowOf, standing, updated]
    rfl
  | userGrantRevoked sponsor user grant authorized stored =>
    obtain ⟨log, event, applied⟩ := foldl_applyEvent_singleton sdk db logs
    rw [applied, applyEvent, event]
    exact
      { sponsors := mirrored.sponsors
        grants := mirrored.grants.modify
          (fun row => { row with revoked := true, updatedAt := env.now }) stored
          (fun row => rfl) rfl }

end Step

/-! ### Every run -/

/-- After every run and every log of it, the tables of the sponsors and of the grants hold exactly
the records and grants of the contract. -/
theorem sponsors_refined (sdk : Sdk) (calls : List Call) (records : List LogEvent)
    (logs : machine.Logs (List.map sponsorshipEvent) LogEvent.event
      (machine.history empty calls) records) (sponsor user : Address) :
    (replayProjections sdk records).sponsors.get sponsor =
        (getSponsor (machine.final empty calls) sponsor.val).map sponsorRowOf ∧
      (replayProjections sdk records).userGrants.get (sponsor, user) =
        (getUserGrant (machine.final empty calls) sponsor.val user.val).map userGrantRowOf := by
  have mirrored := machine.projection_induction (List.map sponsorshipEvent) LogEvent.event
    (applyEvent sdk) empty .empty (fun _ state db => SponsorsMirrored state db)
    ⟨Correspondence.mirrors_empty, Correspondence.mirrors_empty⟩
    (fun _ entry _ _ before carried => sponsors_keep sdk (effect_of_entry entry) carried before)
    calls records logs
  rw [getSponsor, getUserGrant, if_neg (key_ne_nil sponsor),
    if_neg (not_or.mpr ⟨key_ne_nil sponsor, key_ne_nil user⟩)]
  have row := mirrored.sponsors sponsor
  have grant := mirrored.grants (sponsor, user)
  rw [Correspondence.Agrees] at row grant
  exact ⟨Option.map_id'.symm.trans row, Option.map_id'.symm.trans grant⟩

/-- The log of a short service. -/
def serviceLog : List LogEvent :=
  logOf (machine.emitted (List.map sponsorshipEvent) (machine.history empty shortService))

theorem sponsors_refined_shortService :
    (machine.history empty shortService).length = 4 ∧
      (replayProjections Sdk.standard serviceLog).sponsors.get (Address.repeated 1) =
        some ⟨"https://sponsor.example", 1, false, 5, 8⟩ ∧
      (replayProjections Sdk.standard serviceLog).userGrants.get
        (Address.repeated 1, Address.repeated 2) = some ⟨1, 9, true, 7⟩ := by
  obtain ⟨row, grant⟩ := sponsors_refined Sdk.standard shortService serviceLog (map_event_logOf _)
    (Address.repeated 1) (Address.repeated 2)
  refine ⟨by decide +kernel, ?_, ?_⟩
  · rw [row]
    decide +kernel
  · rw [grant]
    decide +kernel

end OpenSocial.Indexer
