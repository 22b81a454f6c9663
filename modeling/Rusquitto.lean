import Rusquitto.Cluster.Authorship
import Rusquitto.Cluster.Meeting
import Rusquitto.Cluster.Membership
import Rusquitto.Cluster.Retention
import Rusquitto.Cluster.Succession
import Rusquitto.Persistence.Replay
import Rusquitto.Persistence.Truncation
import Rusquitto.Server.Answers
import Rusquitto.Server.Backlog
import Rusquitto.Server.Dormancy
import Rusquitto.Server.FailedFlush
import Rusquitto.Server.Lifetimes
import Rusquitto.Server.Outbound
import Rusquitto.Server.ParkingLot
import Rusquitto.Server.Quota
import Rusquitto.Server.Retransmission
import Rusquitto.Server.Suspension
import Rusquitto.Server.WillLaw
import Rusquitto.Topics.Branches
import Rusquitto.Topics.FlatMap
import Rusquitto.Transport.WebSocket
