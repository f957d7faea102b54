import OpenSocial.Library.Store
import OpenSocial.Library.Mirror
import OpenSocial.Library.Machine
import OpenSocial.Library.Projection
import OpenSocial.Library.Word
import OpenSocial.Library.Outcome
import OpenSocial.Library.Credit
import OpenSocial.Library.Base58
import OpenSocial.Library.SortedPair
import OpenSocial.Library.Rows
import OpenSocial.Library.Lasting
import OpenSocial.Library.Session
import OpenSocial.Common.Util
import OpenSocial.Common.Actor
import OpenSocial.Identity.Contract
import OpenSocial.Identity.Effects
import OpenSocial.Identity.Recovery
import OpenSocial.Identity.Policies
import OpenSocial.Identity.Devices
import OpenSocial.Token.Contract
import OpenSocial.Token.Effects
import OpenSocial.Token.Conservation
import OpenSocial.Token.Arithmetic
import OpenSocial.Token.Usage
import OpenSocial.Token.Regeneration
import OpenSocial.Token.Rewards
import OpenSocial.Communities.Contract
import OpenSocial.Communities.Effects
import OpenSocial.Communities.Privileges
import OpenSocial.Registry.Contract
import OpenSocial.Registry.Effects
import OpenSocial.Registry.TimeLock
import OpenSocial.Registry.Listing
import OpenSocial.Relationships.Contract
import OpenSocial.Relationships.Effects
import OpenSocial.Relationships.Graph
import OpenSocial.Messaging.Contract
import OpenSocial.Messaging.Effects
import OpenSocial.Messaging.Consent
import OpenSocial.Messaging.Numbering
import OpenSocial.Publications.Contract
import OpenSocial.Publications.Effects
import OpenSocial.Publications.History
import OpenSocial.Publications.Threads
import OpenSocial.Publications.Sequences
import OpenSocial.Publications.Versions
import OpenSocial.Publications.Audience
import OpenSocial.Protocol.Joint
import OpenSocial.Protocol.Authority
import OpenSocial.Protocol.KeyedReads
import OpenSocial.Sdk.Json
import OpenSocial.Indexer.Db
import OpenSocial.Indexer.Projections
import OpenSocial.Indexer.Communities
import OpenSocial.Indexer.Registry
import OpenSocial.Indexer.Identity
import OpenSocial.Indexer.Relationships
import OpenSocial.Indexer.IdentityGraph
import OpenSocial.Indexer.Messaging
import OpenSocial.Indexer.Publications
import OpenSocial.Indexer.Chain
import OpenSocial.Indexer.Log
import OpenSocial.Indexer.Blocks
import OpenSocial.Indexer.Integrity
import OpenSocial.Indexer.Paging
import OpenSocial.Indexer.Feed
import OpenSocial.Indexer.Conversations
import OpenSocial.Indexer.Polling
import OpenSocial.Library.Exchange
import OpenSocial.Sdk.Sponsor
import OpenSocial.Sdk.Submission
import OpenSocial.Extension.Publication
import OpenSocial.Library.Service
import OpenSocial.Sdk.Reconcile
import OpenSocial.Sdk.Envelope
import OpenSocial.CrossPosts.Orchestrator
import OpenSocial.CrossPosts.Conflicts
import OpenSocial.Library.Tasks
import OpenSocial.Library.History
import OpenSocial.Library.Wire
import OpenSocial.Sponsor.Validate
import OpenSocial.Sponsor.Quota
import OpenSocial.Sponsor.Service
import OpenSocial.Sponsor.Accounting
import OpenSocial.Sponsor.Burst
import OpenSocial.Extension.Vault
import OpenSocial.Extension.Locking
import OpenSocial.Extension.Account
import OpenSocial.Extension.Protobuf
import OpenSocial.Extension.RoundTrip
import OpenSocial.Extension.Draft
import OpenSocial.Sdk.PostIds
import OpenSocial.Sdk.DirectMessages
import OpenSocial.Extension.Decrypt
import OpenSocial.Web.Drafts
import OpenSocial.Sponsor.Binding
import OpenSocial.Library.Packing
import OpenSocial.Sdk.Audience
import OpenSocial.Sdk.KeyPackages
import OpenSocial.Web.Keystore
import OpenSocial.Web.Publish
import OpenSocial.Web.EpochKeys
import OpenSocial.Web.Trust
import OpenSocial.Library.Stateful
import OpenSocial.Indexer.Sync
import OpenSocial.Indexer.Following
import OpenSocial.Indexer.Confluence
import OpenSocial.Indexer.Commitment
import OpenSocial.Indexer.Convergence
import OpenSocial.Sponsorship.Contract
import OpenSocial.Sponsorship.Effects
import OpenSocial.Sponsorship.Records
import OpenSocial.Sponsorship.Listing
import OpenSocial.Indexer.Sponsorship
import OpenSocial.Extension.Handlers
import OpenSocial.Web.Messages
import OpenSocial.Web.Outbox
