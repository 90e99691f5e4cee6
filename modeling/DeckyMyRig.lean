import DeckyMyRig.Lib.Runs
import DeckyMyRig.Host.Rejected
import DeckyMyRig.Host.Throttling
import DeckyMyRig.Host.ConfirmationLimit
import DeckyMyRig.Host.FailureSources
import DeckyMyRig.Host.Restarts
import DeckyMyRig.Host.SaveFailures
import DeckyMyRig.Host.LockOrder
import DeckyMyRig.Host.Issuance
import DeckyMyRig.Host.VersionSurvival
import DeckyMyRig.Host.Authority
import DeckyMyRig.Host.Completion
import DeckyMyRig.Host.Replacement
import DeckyMyRig.Deck.Representation
import DeckyMyRig.Deck.Reloading
import DeckyMyRig.Deck.ResponseAuthenticity
import DeckyMyRig.Deck.RoundTrip
import DeckyMyRig.Deck.Offsets
import DeckyMyRig.Deck.Locking
import DeckyMyRig.Deck.Urls
import DeckyMyRig.Deck.Neighbours
import DeckyMyRig.System.Messages
import DeckyMyRig.System.Channel
import DeckyMyRig.System.Pairing
import DeckyMyRig.System.PairDevice
import DeckyMyRig.System.Versions
import DeckyMyRig.System.Ports
import DeckyMyRig.System.Superseded
import DeckyMyRig.Control.Countdown
import DeckyMyRig.System.Served
import DeckyMyRig.System.Honest
import DeckyMyRig.Host.Revocation
import DeckyMyRig.System.Refusals
import DeckyMyRig.Host.Persistence
import DeckyMyRig.Host.ManagementCodec
import DeckyMyRig.System.ManagementPipe
import DeckyMyRig.Deck.Statuses
import DeckyMyRig.Frontend.QuickAccess
import DeckyMyRig.System.Entry
