import P2pDdns.Expiry
import P2pDdns.AntiEntropy
import P2pDdns.Announcements
import P2pDdns.Removal
import P2pDdns.Disclosure
import P2pDdns.Clients
import P2pDdns.Evictions
import P2pDdns.Restart
import P2pDdns.HostsSurvival
import P2pDdns.HostsRuns
import P2pDdns.HostsFaults
import P2pDdns.HostsCollisions
import P2pDdns.Frames
import P2pDdns.AdminHttp
import P2pDdns.SyncJoin
import P2pDdns.HostsPublished
import P2pDdns.Histories
import P2pDdns.Cleanup
import P2pDdns.AdminEffects
import P2pDdns.PacketBoundaries
import P2pDdns.TicketTexts
import P2pDdns.Pausing
import P2pDdns.WireNetwork
import P2pDdns.HostsTurns
import P2pDdns.Parties
import P2pDdns.AdminSessions
import P2pDdns.Retention
import P2pDdns.DatabaseRuns
import P2pDdns.HttpClients
import P2pDdns.Farewells
import P2pDdns.SyncAgreement
