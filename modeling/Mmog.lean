import Mmog.Ships.Refinement
import Mmog.Ships.Owners
import Mmog.Requests.Sound
import Mmog.Shipyard.Spacing
import Mmog.Shipyard.Payment
import Mmog.Shipyard.Cancel
import Mmog.Shipyard.Books
import Mmog.Research.Money
import Mmog.Research.Scholars
import Mmog.Research.Tree
import Mmog.Research.Effects
import Mmog.Solvency.Reachable
import Mmog.Solvency.Updates
import Mmog.Homes.Unique
import Mmog.Ownership.Forever
import Mmog.Energy.Honest
import Mmog.Buildings.Tree
import Mmog.Buildings.Offers
import Mmog.Community.Score
import Mmog.Community.Founder
import Mmog.Community.Ranks
import Mmog.Community.Rights
import Mmog.Community.Friends
import Mmog.Buildings.Refunds
import Mmog.Model.Galaxy
import Mmog.Galaxies.Distance
import Mmog.Access.Requests
import Mmog.Missions.Relations
import Mmog.Fights.Losses
import Mmog.Fights.Loot
import Mmog.Fights.Prize
import Mmog.Fights.Reports
import Mmog.Cargo.Unloading
import Mmog.Cargo.Loading
import Mmog.Cargo.Colony
import Mmog.Missions.Callback
import Mmog.Missions.Settlers
import Mmog.Missions.Pace
import Mmog.Missions.Apart
import Mmog.Stores.Tick
import Mmog.Stores.Depot
import Mmog.Post.Shelves
import Mmog.Shipyard.Available
import Mmog.Visibility.Memory
import Mmog.Visibility.Quiet
import Mmog.Homes.Startplanets
import Mmog.Homes.Welcome
import Mmog.Mail.Honest
import Mmog.Research.Laboratories
import Mmog.Settings.Roundtrip
