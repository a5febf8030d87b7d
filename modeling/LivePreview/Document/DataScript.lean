namespace LivePreview.Document

def dataScriptLines : List String := [
  "// Lantern guest runtime: optional-library aliasing with stub fallbacks, and",
  "// polling data-access primitives. Shares the global scope with the user",
  "// program by contract; reads its settings from __LANTERN_CONFIG__.",
  "(function (global) \x7b",
  "  'use strict';",
  "",
  "  var config = global.__LANTERN_CONFIG__ || \x7b\x7d;",
  "",
  "  // ── Library aliasing ────────────────────────────────────────────────",
  "",
  "  function passThrough(props) \x7b",
  "    return props && props.children !== undefined ? props.children : null;",
  "  \x7d",
  "",
  "  function renderNothing() \x7b",
  "    return null;",
  "  \x7d",
  "",
  "  function anchor(props) \x7b",
  "    var React = global.React;",
  "    if (!React) return null;",
  "    return React.createElement('a', \x7b href: props.to || '#', className: props.className \x7d, props.children);",
  "  \x7d",
  "",
  "  var REACT_NAMES = [",
  "    'useState', 'useEffect', 'useLayoutEffect', 'useMemo', 'useCallback', 'useRef',",
  "    'useReducer', 'useContext', 'createContext', 'Fragment', 'memo', 'forwardRef'",
  "  ];",
  "",
  "  var RECHARTS_NAMES = [",
  "    'ResponsiveContainer', 'LineChart', 'Line', 'BarChart', 'Bar', 'AreaChart', 'Area',",
  "    'PieChart', 'Pie', 'Cell', 'ComposedChart', 'ScatterChart', 'Scatter', 'RadarChart',",
  "    'Radar', 'PolarGrid', 'PolarAngleAxis', 'PolarRadiusAxis', 'XAxis', 'YAxis',",
  "    'CartesianGrid', 'Tooltip', 'Legend'",
  "  ];",
  "",
  "  var ROUTER_NAMES = [",
  "    'BrowserRouter', 'HashRouter', 'MemoryRouter', 'Routes', 'Route', 'Link', 'NavLink',",
  "    'Navigate', 'Outlet', 'useNavigate', 'useParams', 'useLocation', 'useSearchParams'",
  "  ];",
  "",
  "  var STUBS = \x7b",
  "    ResponsiveContainer: passThrough,",
  "    BrowserRouter: passThrough,",
  "    HashRouter: passThrough,",
  "    MemoryRouter: passThrough,",
  "    Routes: passThrough,",
  "    Route: function (props) \x7b return props.element || props.children || null; \x7d,",
  "    Link: anchor,",
  "    NavLink: anchor,",
  "    useNavigate: function () \x7b return function () \x7b\x7d; \x7d,",
  "    useParams: function () \x7b return \x7b\x7d; \x7d,",
  "    useLocation: function () \x7b return \x7b pathname: '/', search: '', hash: '' \x7d; \x7d,",
  "    useSearchParams: function () \x7b return [\x7b get: function () \x7b return null; \x7d \x7d, function () \x7b\x7d]; \x7d",
  "  \x7d;",
  "",
  "  function alias(libName, names) \x7b",
  "    var lib = global[libName];",
  "    var available = !!lib;",
  "    if (!available) global[libName] = \x7b\x7d;",
  "    names.forEach(function (name) \x7b",
  "      var value = available && lib[name] !== undefined ? lib[name] : (STUBS[name] || renderNothing);",
  "      global[name] = value;",
  "      if (!available) global[libName][name] = value;",
  "    \x7d);",
  "    return available;",
  "  \x7d",
  "",
  "  var libraries = \x7b",
  "    react: !!global.React,",
  "    recharts: false,",
  "    router: false",
  "  \x7d;",
  "  if (libraries.react) \x7b",
  "    REACT_NAMES.forEach(function (name) \x7b",
  "      if (global.React[name] !== undefined) global[name] = global.React[name];",
  "    \x7d);",
  "  \x7d",
  "  libraries.recharts = alias('Recharts', RECHARTS_NAMES);",
  "  libraries.router = alias('ReactRouterDOM', ROUTER_NAMES);",
  "",
  "  // ── Data access ─────────────────────────────────────────────────────",
  "",
  "  function apiBase() \x7b",
  "    return String(config.apiUrl || '').replace(/\\/+$/, '');",
  "  \x7d",
  "",
  "  function pollInterval() \x7b",
  "    var ms = Number(config.pollIntervalMs);",
  "    return ms > 0 ? ms : 5000;",
  "  \x7d",
  "",
  "  function minQuantity() \x7b",
  "    var min = Number(config.minQuantity);",
  "    return isNaN(min) ? 1 : min;",
  "  \x7d",
  "",
  "  function headers(json) \x7b",
  "    var key = config.anonKey || '';",
  "    var h = \x7b",
  "      apikey: key,",
  "      Authorization: 'Bearer ' + (config.serviceKey || key),",
  "      Accept: 'application/json'",
  "    \x7d;",
  "    if (json) h['Content-Type'] = 'application/json';",
  "    return h;",
  "  \x7d",
  "",
  "  function buildQueryUrl(table, options) \x7b",
  "    options = options || \x7b\x7d;",
  "    var params = ['select=' + encodeURIComponent(options.select || '*')];",
  "    if (options.filter) params.push(String(options.filter));",
  "    if (options.order) params.push('order=' + encodeURIComponent(options.order));",
  "    if (options.limit !== undefined && options.limit !== null) \x7b",
  "      params.push('limit=' + encodeURIComponent(String(options.limit)));",
  "    \x7d",
  "    return apiBase() + '/rest/' + encodeURIComponent(table) + '?' + params.join('&');",
  "  \x7d",
  "",
  "  function errorMessage(body) \x7b",
  "    if (body === null || typeof body !== 'object' || Array.isArray(body)) return null;",
  "    if (typeof body.message === 'string') return body.message;",
  "    if (typeof body.error === 'string') return body.error;",
  "    if (body.error && typeof body.error.message === 'string') return body.error.message;",
  "    return null;",
  "  \x7d",
  "",
  "  function filterByQuantity(rows) \x7b",
  "    var min = minQuantity();",
  "    return rows.filter(function (row) \x7b",
  "      return row !== null && typeof row === 'object' && Number(row.quantity) >= min;",
  "    \x7d);",
  "  \x7d",
  "",
  "  function fetchJson(url, init) \x7b",
  "    return global.fetch(url, init).then(function (res) \x7b return res.json(); \x7d);",
  "  \x7d",
  "",
  "  // One subscription: initial fetch, then a fixed-interval re-fetch until",
  "  // disposed. Never throws; failures land in \x60error\x60, stale \x60data\x60 survives.",
  "  function createQuery(load, options) \x7b",
  "    options = options || \x7b\x7d;",
  "    var transform = options.transform;",
  "    var state = \x7b data: options.initial !== undefined ? options.initial : [], loading: true, error: null \x7d;",
  "    var listeners = [];",
  "    var handle = null;",
  "    var disposed = false;",
  "    // Ticks overlap when a request outlives the interval; only a response",
  "    // newer than the last one applied may land.",
  "    var issued = 0;",
  "    var landed = 0;",
  "",
  "    function snapshot() \x7b",
  "      return \x7b data: state.data, loading: state.loading, error: state.error \x7d;",
  "    \x7d",
  "",
  "    function emit() \x7b",
  "      var snap = snapshot();",
  "      listeners.forEach(function (listener) \x7b listener(snap); \x7d);",
  "    \x7d",
  "",
  "    function apply(body) \x7b",
  "      var message = errorMessage(body);",
  "      if (options.raw) \x7b",
  "        state.data = body;",
  "        state.error = null;",
  "      \x7d else if (Array.isArray(body)) \x7b",
  "        state.data = transform ? transform(body) : body;",
  "        state.error = null;",
  "      \x7d else if (message !== null) \x7b",
  "        state.error = message;",
  "      \x7d else \x7b",
  "        state.error = 'Unexpected response shape';",
  "      \x7d",
  "      state.loading = false;",
  "    \x7d",
  "",
  "    function fail(err) \x7b",
  "      state.error = (err && err.message) || String(err);",
  "      state.loading = false;",
  "    \x7d",
  "",
  "    function current(seq) \x7b",
  "      if (disposed || seq < landed) return false;",
  "      landed = seq;",
  "      return true;",
  "    \x7d",
  "",
  "    function tick() \x7b",
  "      if (disposed) return Promise.resolve(snapshot());",
  "      var seq = ++issued;",
  "      var pending;",
  "      try \x7b",
  "        pending = load();",
  "      \x7d catch (err) \x7b",
  "        if (current(seq)) \x7b fail(err); emit(); \x7d",
  "        return Promise.resolve(snapshot());",
  "      \x7d",
  "      if (!pending) \x7b",
  "        if (current(seq)) \x7b state.loading = false; emit(); \x7d",
  "        return Promise.resolve(snapshot());",
  "      \x7d",
  "      return Promise.resolve(pending).then(",
  "        function (body) \x7b",
  "          if (current(seq)) \x7b apply(body); emit(); \x7d",
  "          return snapshot();",
  "        \x7d,",
  "        function (err) \x7b",
  "          if (current(seq)) \x7b fail(err); emit(); \x7d",
  "          return snapshot();",
  "        \x7d",
  "      );",
  "    \x7d",
  "",
  "    return \x7b",
  "      snapshot: snapshot,",
  "      tick: tick,",
  "      subscribe: function (listener) \x7b listeners.push(listener); \x7d,",
  "      start: function (intervalMs) \x7b",
  "        tick();",
  "        handle = global.setInterval(tick, intervalMs || pollInterval());",
  "      \x7d,",
  "      dispose: function () \x7b",
  "        disposed = true;",
  "        if (handle !== null) global.clearInterval(handle);",
  "        handle = null;",
  "      \x7d",
  "    \x7d;",
  "  \x7d",
  "",
  "  function createTableQuery(table, options) \x7b",
  "    return createQuery(function () \x7b",
  "      return fetchJson(buildQueryUrl(table, options), \x7b headers: headers(false) \x7d);",
  "    \x7d);",
  "  \x7d",
  "",
  "  function createRecordQuery(table, id, options) \x7b",
  "    options = options || \x7b\x7d;",
  "    return createQuery(function () \x7b",
  "      if (id === undefined || id === null || id === '') return null;",
  "      var filter = 'id=eq.' + encodeURIComponent(String(id));",
  "      var merged = \x7b select: options.select, filter: options.filter ? filter + '&' + options.filter : filter, limit: 1 \x7d;",
  "      return fetchJson(buildQueryUrl(table, merged), \x7b headers: headers(false) \x7d);",
  "    \x7d, \x7b",
  "      initial: null,",
  "      transform: function (rows) \x7b return rows.length > 0 ? rows[0] : null; \x7d",
  "    \x7d);",
  "  \x7d",
  "",
  "  function createLocationProductsQuery(options) \x7b",
  "    options = options || \x7b\x7d;",
  "    return createQuery(function () \x7b",
  "      var locationId = options.locationId || global.LOCATION_ID || null;",
  "      if (locationId) \x7b",
  "        var url = apiBase() + '/rest/rpc/' + encodeURIComponent(config.locationRpc || 'location_products');",
  "        return fetchJson(url, \x7b",
  "          method: 'POST',",
  "          headers: headers(true),",
  "          body: JSON.stringify(\x7b location_id: locationId \x7d)",
  "        \x7d).then(function (body) \x7b",
  "          return Array.isArray(body) ? filterByQuantity(body) : body;",
  "        \x7d);",
  "      \x7d",
  "      return fetchJson(buildQueryUrl(options.table || 'products', options), \x7b headers: headers(false) \x7d);",
  "    \x7d);",
  "  \x7d",
  "",
  "  function createPoll(fn) \x7b",
  "    return createQuery(function () \x7b return fn(); \x7d, \x7b raw: true, initial: null \x7d);",
  "  \x7d",
  "",
  "  // ── Hooks ───────────────────────────────────────────────────────────",
  "",
  "  function useSubscription(factory, deps, initial) \x7b",
  "    var React = global.React;",
  "    if (!React || typeof React.useState !== 'function') \x7b",
  "      return \x7b data: initial, loading: false, error: 'React is not available' \x7d;",
  "    \x7d",
  "    var pair = React.useState(\x7b data: initial, loading: true, error: null \x7d);",
  "    var setResult = pair[1];",
  "    React.useEffect(function () \x7b",
  "      var query = factory();",
  "      query.subscribe(setResult);",
  "      query.start(pollInterval());",
  "      return function () \x7b query.dispose(); \x7d;",
  "    \x7d, deps);",
  "    return pair[0];",
  "  \x7d",
  "",
  "  function useTable(table, options) \x7b",
  "    return useSubscription(function () \x7b return createTableQuery(table, options); \x7d,",
  "      [table, JSON.stringify(options || \x7b\x7d)], []);",
  "  \x7d",
  "",
  "  function useRecord(table, id, options) \x7b",
  "    return useSubscription(function () \x7b return createRecordQuery(table, id, options); \x7d,",
  "      [table, id, JSON.stringify(options || \x7b\x7d)], null);",
  "  \x7d",
  "",
  "  function useLocationProducts(options) \x7b",
  "    var locationId = (options && options.locationId) || global.LOCATION_ID || null;",
  "    return useSubscription(function () \x7b return createLocationProductsQuery(options); \x7d,",
  "      [locationId, JSON.stringify(options || \x7b\x7d)], []);",
  "  \x7d",
  "",
  "  function usePoll(fn, deps) \x7b",
  "    return useSubscription(function () \x7b return createPoll(fn); \x7d, deps || [], null);",
  "  \x7d",
  "",
  "  global.useTable = useTable;",
  "  global.useQuery = useTable;",
  "  global.useRecord = useRecord;",
  "  global.useLocationProducts = useLocationProducts;",
  "  global.usePoll = usePoll;",
  "",
  "  global.LanternData = \x7b",
  "    libraries: libraries,",
  "    buildQueryUrl: buildQueryUrl,",
  "    errorMessage: errorMessage,",
  "    filterByQuantity: filterByQuantity,",
  "    createQuery: createQuery,",
  "    createTableQuery: createTableQuery,",
  "    createRecordQuery: createRecordQuery,",
  "    createLocationProductsQuery: createLocationProductsQuery,",
  "    createPoll: createPoll",
  "  \x7d;",
  "\x7d)(typeof window !== 'undefined' ? window : globalThis);",
  ""]

def dataScript : String :=
  "\n".intercalate dataScriptLines

end LivePreview.Document
