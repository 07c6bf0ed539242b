import MongoWire.Bson.Canonical
import MongoWire.Bson.Scalars
import MongoWire.Bson.Datetime
import MongoWire.Bson.Json
import MongoWire.Messages.Compressed
import MongoWire.Messages.Truncated
import MongoWire.Framing.Pipeline
import MongoWire.Ingress
import MongoWire.Auth.Plain
import MongoWire.Api.BridgeFailures
import MongoWire.Api.Builtin
import MongoWire.Api.Replies
import MongoWire.Api.Flags
import MongoWire.Api.Usernames
import MongoWire.Limits
import MongoWire.Network.Order
import MongoWire.Network.Rest
import MongoWire.Network.Authenticated
import MongoWire.Network.Transparent
import MongoWire.Api.Wrapped
import MongoWire.Network.Advertised
import MongoWire.Bson.Store
import MongoWire.Bson.LogLines
import MongoWire.Demo
import MongoWire.Api.Login
