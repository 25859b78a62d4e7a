import Catwalk.Device
import Catwalk.Host.Edit
import Catwalk.Host.Plant
import Catwalk.Host.Query
import Catwalk.Host.Survey
import Catwalk.Session
import Catwalk.Walk.Run
import Catwalk.Walk.Show
import Catwalk.Walk.Tour
import Catwalk.Proofs.Levels
import Catwalk.Proofs.Outcomes
import Catwalk.Proofs.Refills
import Catwalk.Proofs.Walks
import Catwalk.Proofs.Steps
import Catwalk.Proofs.Soundness
import Catwalk.Proofs.Runs
import Catwalk.Proofs.Histories
import Catwalk.Proofs.Atomicity
import Catwalk.Proofs.Listings
import Catwalk.Proofs.Readings
import Catwalk.Proofs.Journeys
import Catwalk.Proofs.Progress
import Catwalk.Proofs.Edits
import Catwalk.Proofs.Descents
import Catwalk.Proofs.Tables
import Catwalk.Proofs.OrderedTrees
import Catwalk.Proofs.Views
import Catwalk.Proofs.Refinements
import Catwalk.Proofs.Trees
import Catwalk.Proofs.Plans
import Catwalk.Proofs.Traversals
import Catwalk.Proofs.Retries
import Catwalk.Proofs.Accounts
import Catwalk.Proofs.Fleets
import Catwalk.Proofs.Growth
import Catwalk.Proofs.Pairs
import Catwalk.Proofs.Likenesses
import Catwalk.Proofs.Resets
import Catwalk.Proofs.Encodings
import Catwalk.Proofs.Packing
import Catwalk.Proofs.Courses
import Catwalk.Proofs.Tracks
import Catwalk.Proofs.Logs
import Catwalk.Proofs.Sightings
import Catwalk.Proofs.Catalogues
import Catwalk.Proofs.Additions
import Catwalk.Proofs.Detours
import Catwalk.Proofs.Stirrings
import Catwalk.Proofs.ChangingHosts
import Catwalk.Proofs.Resolutions
import Catwalk.Proofs.Batches
import Catwalk.Proofs.Visits
import Catwalk.Proofs.Chains
import Catwalk.Proofs.Leaves
import Catwalk.Proofs.Globs
import Catwalk.Proofs.Spellings
import Catwalk.Proofs.Origins
import Catwalk.Proofs.Lengths
import Catwalk.Proofs.Failures
import Catwalk.Proofs.Canonical
import Catwalk.Proofs.Dates
import Catwalk.Proofs.Scans
import Catwalk.Proofs.Preparations
import Catwalk.Proofs.Tails
import Catwalk.Proofs.Copies
import Catwalk.Proofs.Reservations
import Catwalk.Proofs.Buffers
